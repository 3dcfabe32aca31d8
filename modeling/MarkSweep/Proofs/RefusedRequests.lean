import MarkSweep.Proofs.ArenaHistories

set_option autoImplicit false

namespace MarkSweep

/-- Whether a page lies over the first range that a host had on offer which collided with no page
installed by then, those of a set among them. -/
def Host.Placed (host : Host) (S : Finset Page) (p : Page) : Prop :=
  ∃ (a : Arena) (U : Finset Page) (d : Directory), S ⊆ U ∧ a.directory.Represents U ∧ p ∉ U ∧
    host.Provides a U p d

theorem Host.Placed.mono {host : Host} {S T : Finset Page} {p : Page} (placed : host.Placed T p)
    (part : S ⊆ T) : host.Placed S p := by
  obtain ⟨a, U, d, part', before⟩ := placed
  exact ⟨a, U, d, part.trans part', before⟩

namespace Arena

variable {a b : Arena} {host : Host} {S T : Finset Page} {d : Directory} {size : Nat}
  {kind : BlockKind} {c : SizeClass} {result : Except Error Block}

/-- Whether the pages of a set are found afterwards, and besides them only pages that were placed
meanwhile. -/
structure Grows (host : Host) (a : Arena) (S : Finset Page) (b : Arena) : Prop where
  still_found : ∀ p ∈ S, ∀ x, p.contains x = true → b.directory.lookup x = some p
  placed : ∀ x p, b.directory.lookup x = some p → p ∉ S →
    p ∈ b.pages ∧ p ∉ a.pages ∧ host.Placed S p

/-- What a request is to come to in an arena whose directory has some pages installed. -/
structure LeavesNoTrace (host : Host) (a : Arena) (S : Finset Page) (size : Nat) (kind : BlockKind)
    (result : Except Error Block) (b : Arena) : Prop extends Grows host a S b where
  /-- A refused request changes nothing, unless it is larger than the page that it would share, and
  such pages were mapped before one was denied. -/
  refused : ∀ e, result = .error e → a.Refuses host S size kind e ∧ b = a ∨
    granule < size ∧ size ≤ a.hugeThreshold ∧ a.pages ⊂ b.pages ∧
      ∃ T, host.Denies b T granule (.small kind) (SizeClass.of kind size).blockSize e
  kept : ∀ e, result = .error e → a.slabs.toList <+: b.slabs.toList ∧
    b.liveBlocks = a.liveBlocks ∧ b.liveBytes = a.liveBytes ∧ ∀ c, b.roomyIn c = a.roomyIn c
  mapped : ∀ block, result = .ok block → b.pages = a.pages ∧ b.directory = a.directory ∨
    ∃ page, host.Provides a S page b.directory ∧ page.size = a.pageBytes size ∧
      page.kind = a.pageKind size kind ∧ page.blockSize = a.blockBytes size kind ∧
      b.pages = insert page a.pages

theorem pages_of_allocates (done : a.Allocates host S size kind b) :
    b.pages = a.pages ∧ b.directory = a.directory ∨
      ∃ page, host.Provides a S page b.directory ∧ page.size = a.pageBytes size ∧
        page.kind = a.pageKind size kind ∧ page.blockSize = a.blockBytes size kind ∧
        b.pages = insert page a.pages := by
  unfold pageBytes pageKind blockBytes
  cases done with
  | reused listed found taken => exact .inl ⟨pages_take found (Slab.page_of_takeFree taken), rfl⟩
  | @shared page d k t small provides bytes of_kind of_class unlisted taken =>
    rw [if_neg (Nat.not_lt.2 small), if_neg (Nat.not_lt.2 small), if_neg (Nat.not_lt.2 small)]
    have pages := pages_take (getElem?_slabs_mapPage a page d) (Slab.page_of_takeFree taken)
    exact .inr ⟨page, provides, bytes, of_kind, of_class, pages.trans (pages_mapPage page d)⟩
  | @alone page d k t large provides bytes of_kind of_class taken =>
    rw [if_pos large, if_pos large, if_pos large]
    have pages := pages_take (getElem?_slabs_mapPage a page d) (Slab.page_of_takeFree taken)
    exact .inr ⟨page, provides, bytes, of_kind, of_class, pages.trans (pages_mapPage page d)⟩

theorem pages_mono (slabs : a.slabs.toList <+: b.slabs.toList) : a.pages ⊆ b.pages := by
  intro p mem
  simp only [pages, List.mem_toFinset] at mem ⊢
  exact (slabs.map (·.page)).subset mem

theorem Swells.slabs_prefix (swells : a.Swells host c S b T) :
    a.slabs.toList <+: b.slabs.toList := by
  induction swells with
  | refl => exact List.prefix_rfl
  | @step a b S T page d provides of_kind of_class narrow unlisted rest ih =>
    have longer : ((a.mapPage page d).relist c []).slabs.toList =
        a.slabs.toList ++ [Slab.fresh page] := Array.toList_push
    rw [longer] at ih
    exact (List.prefix_append _ _).trans ih

theorem Swells.counts_eq (swells : a.Swells host c S b T) :
    b.liveBlocks = a.liveBlocks ∧ b.liveBytes = a.liveBytes := by
  induction swells with
  | refl => exact ⟨rfl, rfl⟩
  | step provides of_kind of_class narrow unlisted rest ih => exact ih

theorem Swells.roomyIn_eq (swells : a.Swells host c S b T) (e : SizeClass) :
    b.roomyIn e = a.roomyIn e := by
  induction swells with
  | refl => rfl
  | @step a b S T page d provides of_kind of_class narrow unlisted rest ih =>
    rw [ih, roomyIn_relist]
    split
    · next same => rw [← same, unlisted]
    · rfl

theorem Swells.subset (swells : a.Swells host c S b T) : S ⊆ T := by
  induction swells with
  | refl => exact Finset.Subset.refl _
  | step provides of_kind of_class narrow unlisted rest ih =>
    exact (Finset.subset_insert _ _).trans ih

theorem Swells.tracks (swells : a.Swells host c S b T) (tracks : a.directory.Tracks S) :
    b.directory.Tracks T := by
  induction swells with
  | refl => exact tracks
  | step provides of_kind of_class narrow unlisted rest ih => exact ih provides.tracks

theorem Swells.eq_or_ssubset (swells : a.Swells host c S b T)
    (numbered : ∀ p ∈ a.pages, p.id < a.mapped) : b = a ∧ T = S ∨ a.pages ⊂ b.pages := by
  have kept := pages_mono swells.slabs_prefix
  cases swells with
  | refl => exact .inl ⟨rfl, rfl⟩
  | @step _ _ _ _ page d provides of_kind of_class narrow unlisted rest =>
    have new : page ∉ a.pages := provides.not_mem fun p mem => Nat.ne_of_lt (numbered p mem)
    have here : page ∈ ((a.mapPage page d).relist c []).pages :=
      pages_mapPage page d ▸ Finset.mem_insert_self page a.pages
    exact .inr ((Finset.ssubset_iff_of_subset kept).2
      ⟨page, pages_mono rest.slabs_prefix here, new⟩)

theorem Swells.placed (swells : a.Swells host c S b T) (tracks : a.directory.Tracks S) {p : Page}
    (installed : p ∈ T) (new : p ∉ S) : p ∈ b.pages ∧ a.mapped ≤ p.id ∧ host.Placed S p := by
  induction swells with
  | refl => exact absurd installed new
  | @step a b S T page d provides of_kind of_class narrow unlisted rest ih =>
    obtain rfl | other := eq_or_ne p page
    · have here : p ∈ ((a.mapPage p d).relist c []).pages :=
        pages_mapPage p d ▸ Finset.mem_insert_self p a.pages
      exact ⟨pages_mono rest.slabs_prefix here,
        Nat.le_of_eq (congrArg Page.id provides.described).symm,
        a, S, d, Finset.Subset.refl S, tracks.represents, new, provides⟩
    · have later : p ∉ insert page S := fun mem => (Finset.mem_insert.1 mem).elim other new
      obtain ⟨left, number, placed⟩ := ih provides.tracks installed later
      exact ⟨left, Nat.le_of_succ_le number, placed.mono (Finset.subset_insert page S)⟩

/-- An arena is fit to serve requests with any directory in which the next pages are new. -/
theorem serving_of_filed (filed : a.Filed) (installed : d.Reachable) (represents : d.Represents S)
    (free : a.NumbersFree S Directory.capacity) :
    ({ a with directory := d } : Arena).Serving S where
  slab s hs := ⟨filed.sound.slab s hs, filed.balanced.tidy s hs⟩
  roomy c i := (filed.listed.roomy c i).1
  free := free
  tracks := by
    obtain ⟨T, tracks⟩ := Directory.exists_tracks_of_reachable installed
    exact represents.unique tracks.represents ▸ tracks

theorem grows_of_installed (part : S ⊆ T) (represents : b.directory.Represents T)
    (placed : ∀ p ∈ T, p ∉ S → p ∈ b.pages ∧ p ∉ a.pages ∧ host.Placed S p) :
    Grows host a S b where
  still_found p mem x inside :=
    (represents.lookup_iff x p).2 ⟨part mem, Page.contains_iff.1 inside⟩
  placed x p found new := placed p ((represents.lookup_iff x p).1 found).1 new

theorem grows_of_unmapped (tracks : a.directory.Tracks S) (same : b.directory = a.directory) :
    Grows host a S b :=
  grows_of_installed (Finset.Subset.refl S) (same ▸ tracks.represents)
    fun _ mem new => absurd mem new

theorem grows_of_provides (numbered : ∀ p ∈ a.pages, p.id < a.mapped)
    (tracks : a.directory.Tracks S) {page : Page} (provides : host.Provides a S page b.directory)
    (pages : b.pages = insert page a.pages) : Grows host a S b := by
  have other : page ∉ a.pages := provides.not_mem fun p mem => Nat.ne_of_lt (numbered p mem)
  refine grows_of_installed (Finset.subset_insert page S) provides.tracks.represents
    fun p mem new => ?_
  obtain rfl := (Finset.mem_insert.1 mem).resolve_right new
  exact ⟨pages ▸ Finset.mem_insert_self p a.pages, other, a, S, b.directory,
    Finset.Subset.refl S, tracks.represents, new, provides⟩

theorem Swells.grows (swells : a.Swells host c S b T) (numbered : ∀ p ∈ a.pages, p.id < a.mapped)
    (tracks : a.directory.Tracks S) : Grows host a S b := by
  refine grows_of_installed swells.subset (swells.tracks tracks).represents fun p mem new => ?_
  obtain ⟨left, number, placed⟩ := swells.placed tracks mem new
  exact ⟨left, fun owned => Nat.not_lt.2 number (numbered p owned), placed⟩

theorem leavesNoTrace_of_comesTo (numbered : ∀ p ∈ a.pages, p.id < a.mapped)
    (tracks : a.directory.Tracks S) (outcome : a.ComesTo host S size kind result b) :
    LeavesNoTrace host a S size kind result b := by
  cases outcome with
  | served done =>
    refine ⟨?_, fun e failed => by contradiction, fun e failed => by contradiction,
      fun block _ => pages_of_allocates done⟩
    obtain ⟨-, same⟩ | ⟨page, provides, -, -, -, pages⟩ := pages_of_allocates done
    · exact grows_of_unmapped tracks same
    · exact grows_of_provides numbered tracks provides pages
  | refused refuses =>
    refine ⟨grows_of_unmapped tracks rfl, fun e failed => ?_,
      fun e failed => ⟨List.prefix_rfl, rfl, rfl, fun _ => rfl⟩, fun block done => by contradiction⟩
    obtain rfl := Except.error.inj failed
    exact .inl ⟨refuses, rfl⟩
  | swollen wide small swells denies =>
    refine ⟨swells.grows numbered tracks, fun e failed => ?_,
      fun e failed => ⟨swells.slabs_prefix, swells.counts_eq.1, swells.counts_eq.2,
        swells.roomyIn_eq⟩, fun block done => by contradiction⟩
    obtain rfl := Except.error.inj failed
    obtain ⟨rfl, rfl⟩ | more := swells.eq_or_ssubset numbered
    · exact .inl ⟨refuses_of_small small denies, rfl⟩
    · exact .inr ⟨wide, small, more, _, denies⟩

/-- **A refused request leaves no trace**, whatever an arena has been through and whichever pages
its directory has installed, unless it is larger than the page that it would share. -/
theorem leavesNoTrace_of_exercised {hugeThreshold heapLimit : Nat}
    (used : Arena.Exercised hugeThreshold heapLimit a) (installed : d.Reachable)
    (represents : d.Represents S) (free : a.NumbersFree S Directory.capacity)
    (aligned : host.IsAligned)
    (asked : ({ a with directory := d } : Arena).allocate host size kind = (result, b)) :
    LeavesNoTrace host { a with directory := d } S size kind result b := by
  have filed := filed_of_exercised used
  have serving := serving_of_filed filed installed represents free
  exact leavesNoTrace_of_comesTo (fun p mem => lt_mapped_of_mem_pages filed.sound mem)
    serving.tracks (comesTo_of_allocate serving aligned asked)

/-- A host whose first ranges have the slot of the second granule, and all others that of the
fifth. -/
def aliasing (n : Nat) : Host where
  region _ size attempt :=
    if size == granule then some (if attempt < n then 0x10100010000 else 0x50000) else none
  table _ _ := true

theorem isAligned_aliasing (n : Nat) : (aliasing n).IsAligned := by
  intro a size attempt base region
  unfold aliasing at region
  simp only at region
  split at region
  · next fits =>
    obtain rfl := beq_iff_eq.1 fits
    obtain rfl := Option.some.inj region
    split <;> decide
  · simp at region

theorem leavesNoTrace_of_exercised_pairInUse :
    Arena.Exercised 32768 0 pairInUse ∧
      (∃ b, pairInUse.allocate (aliasing 17) 100 .pointerFree =
          (.error (.directoryCollision 0x10100010000 65536), b) ∧ b = pairInUse) ∧
      ∃ block b, pairInUse.allocate (aliasing 1) 100 .pointerFree = (.ok block, b) ∧
        block.addr = 0x50000 ∧ b.directory.pageCount = 2 ∧
        ∀ p ∈ pairInUse.pages, ∀ x, p.contains x = true → b.directory.lookup x = some p := by
  have used : Arena.Exercised 32768 0 pairInUse :=
    .allocate 20000 .raw (.allocate 32768 .raw .new isAligned_rising) isAligned_rising
  have installed := directory_of_exercised used
  have represents := (filed_of_exercised used).balanced.tracks.represents
  have free := numbersFree_pages (filed_of_exercised used).sound Directory.capacity
  have refused : (pairInUse.allocate (aliasing 17) 100 .pointerFree).1 =
    .error (.directoryCollision 0x10100010000 65536) := by decide +kernel
  have served : (pairInUse.allocate (aliasing 1) 100 .pointerFree).1 = .ok ⟨0x50000, 128⟩ := by
    decide +kernel
  have one := leavesNoTrace_of_exercised used installed represents free (isAligned_aliasing 17)
    (Prod.ext refused rfl)
  have two := leavesNoTrace_of_exercised used installed represents free (isAligned_aliasing 1)
    (Prod.ext served rfl)
  have unchanged := (one.refused _ rfl).resolve_right fun wide => absurd wide.1 (by decide)
  exact ⟨used, ⟨_, Prod.ext refused rfl, unchanged.2⟩,
    ⟨_, _, Prod.ext served rfl, rfl, by decide +kernel, two.still_found⟩⟩

/-- Pages of one granule are no use to a request for a block of two. -/
theorem pages_left_by_wide_request :
    Arena.Exercised 131072 131072 (Arena.new 131072 131072) ∧ rising.IsAligned ∧
      ((Arena.new 131072 131072).allocate rising 65537 .raw).1 = .error (.outOfMemory 65536) ∧
      ((Arena.new 131072 131072).allocate rising 65537 .raw).2.slabs.size = 2 ∧
      ((Arena.new 131072 131072).allocate rising 65537 .raw).2.privateBytes = 131072 ∧
      ((Arena.new 131072 131072).allocate rising 65537 .raw).2.directory.pageCount = 2 ∧
      ((Arena.new 131072 131072).allocate rising 65537 .raw).2 ≠ Arena.new 131072 131072 := by
  have two : ((Arena.new 131072 131072).allocate rising 65537 .raw).2.slabs.size = 2 := by
    decide +kernel
  refine ⟨.new, isAligned_rising, by decide +kernel, two, by decide +kernel, by decide +kernel, ?_⟩
  intro same
  rw [same] at two
  contradiction

end Arena

end MarkSweep
