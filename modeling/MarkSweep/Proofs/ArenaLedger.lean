import MarkSweep.Proofs.PagePlacement
import MarkSweep.Proofs.SlabCursor

set_option autoImplicit false

/-!
# The books of an arena

The counts of an arena are right for its slabs, its directory holds their pages, and its lists name
the slabs with room. An allocation is then one of three things: it takes a block from the slab that
its class lists first, or maps a page for a class that lists none and takes a block from it, or maps
a page of its own. An allocation that is refused leaves the arena as it was, unless the blocks of
its class are larger than the pages it shares: then pages without a block are mapped in vain.
-/

namespace MarkSweep

namespace Arena

def pages (a : Arena) : Finset Page := (a.slabs.toList.map (·.page)).toFinset

structure Balanced (a : Arena) : Prop where
  tidy : ∀ s ∈ a.slabs, s.Tidy
  privateBytes : a.privateBytes = total (·.page.size) a.slabs.toList
  liveBlocks : a.liveBlocks = total (·.used) a.slabs.toList
  liveBytes : a.liveBytes = total (fun s => s.used * s.page.blockSize) a.slabs.toList
  tracks : a.directory.Tracks a.pages

/-- Whether slabs with room are listed under their class, each once. -/
structure Listed (a : Arena) : Prop where
  roomy : ∀ c i, i ∈ a.roomyIn c ↔ ∃ s, a.slabs[i]? = some s ∧ s.HasRoom c
  once : ∀ c, (a.roomyIn c).Nodup

/-- Whether slabs with room are listed and no slab is unused. -/
structure Stocked (a : Arena) : Prop extends Listed a where
  inUse : ∀ s ∈ a.slabs, 0 < s.used

structure Filed (a : Arena) : Prop where
  sound : a.Sound
  balanced : a.Balanced
  listed : a.Listed

/-- Whether the books of an arena in order are kept. No block of a class is then larger than half a
page, so no page is without a block. -/
structure Tallied (a : Arena) : Prop where
  sound : a.Sound
  balanced : a.Balanced
  stocked : a.Stocked
  threshold : Config.validHugeThreshold a.hugeThreshold = true

theorem Tallied.filed {a : Arena} (tallied : a.Tallied) : a.Filed :=
  ⟨tallied.sound, tallied.balanced, tallied.stocked.toListed⟩

theorem mem_pages {a : Arena} {p : Page} : p ∈ a.pages ↔ ∃ i, a.page? i = some p := by
  simp only [pages, List.mem_toFinset, List.mem_map, Array.mem_toList_iff]
  constructor
  · rintro ⟨s, hs, rfl⟩
    obtain ⟨i, found⟩ := Array.getElem?_of_mem hs
    exact ⟨i, page?_eq_some found⟩
  · rintro ⟨i, hp⟩
    obtain ⟨s, found, rfl⟩ := exists_of_page?_eq_some hp
    exact ⟨s, Array.mem_of_getElem? found, rfl⟩

theorem filed_new (hugeThreshold heapLimit : Nat) : (Arena.new hugeThreshold heapLimit).Filed where
  sound := sound_new hugeThreshold heapLimit
  balanced := ⟨by simp [new], rfl, rfl, rfl, Directory.tracks_empty⟩
  listed := ⟨by simp [new, roomyIn], by simp [new, roomyIn]⟩

theorem tallied_new {hugeThreshold heapLimit : Nat}
    (valid : Config.validHugeThreshold hugeThreshold = true) :
    (Arena.new hugeThreshold heapLimit).Tallied where
  sound := sound_new hugeThreshold heapLimit
  balanced := (filed_new hugeThreshold heapLimit).balanced
  stocked := ⟨(filed_new hugeThreshold heapLimit).listed, by simp [new]⟩
  threshold := valid

def NumbersFree (a : Arena) (S : Finset Page) (n : Nat) : Prop :=
  ∀ p ∈ S, ∀ m ≤ n, p.id ≠ a.mapped + m

/-- Whether an arena whose directory has some pages installed is fit to serve requests. The pages
need not be its own. -/
structure Serving (a : Arena) (S : Finset Page) : Prop where
  slab : ∀ s ∈ a.slabs, s.Sound ∧ s.Tidy
  roomy : ∀ c i, i ∈ a.roomyIn c → ∃ s, a.slabs[i]? = some s ∧ s.HasRoom c
  free : a.NumbersFree S Directory.capacity
  tracks : a.directory.Tracks S

theorem NumbersFree.first {a : Arena} {S : Finset Page} {n : Nat} (free : a.NumbersFree S n) :
    ∀ p ∈ S, p.id ≠ a.mapped := fun p mem => free p mem 0 (Nat.zero_le n)

theorem lt_mapped_of_mem_pages {a : Arena} (sound : a.Sound) {p : Page} (mem : p ∈ a.pages) :
    p.id < a.mapped := by
  obtain ⟨i, found⟩ := mem_pages.1 mem
  exact sound.numbered i p found

theorem numbersFree_pages {a : Arena} (sound : a.Sound) (n : Nat) : a.NumbersFree a.pages n := by
  intro p mem m _
  have before := lt_mapped_of_mem_pages sound mem
  omega

theorem Filed.serving {a : Arena} (filed : a.Filed) : a.Serving a.pages where
  slab s hs := ⟨filed.sound.slab s hs, filed.balanced.tidy s hs⟩
  roomy c i := (filed.listed.roomy c i).1
  free := numbersFree_pages filed.sound _
  tracks := filed.balanced.tracks

def take (a : Arena) (i : Nat) (t : Slab) : Arena :=
  { a with
    slabs := a.slabs.setIfInBounds i t
    liveBlocks := a.liveBlocks + 1
    liveBytes := a.liveBytes + t.page.blockSize }

section Taking

variable {a : Arena} {i k : Nat} {s t : Slab}

theorem takeFrom_eq (found : a.slabs[i]? = some s) (taken : s.takeFree = (some k, t)) :
    a.takeFrom i = (some (t.block k), a.take i t) := by
  simp only [takeFrom, found, taken]
  rfl

theorem getElem?_slabs_take (found : a.slabs[i]? = some s) (j : Nat) :
    (a.take i t).slabs[j]? = if i = j then some t else a.slabs[j]? :=
  getElem?_slabs_of_set found rfl j

theorem pages_take (found : a.slabs[i]? = some s) (page : t.page = s.page) :
    (a.take i t).pages = a.pages := by
  ext p
  rw [mem_pages, mem_pages, page?_setIfInBounds found rfl page]

theorem balanced_take (balanced : a.Balanced) (found : a.slabs[i]? = some s) (sound : s.Sound)
    (taken : s.takeFree = (some k, t)) : (a.take i t).Balanced := by
  have page := Slab.page_of_takeFree taken
  have used := Slab.used_of_takeFree taken
  have slabs : (a.take i t).slabs.toList = a.slabs.toList.set i t := Array.toList_setIfInBounds
  have found' : a.slabs.toList[i]? = some s := by rw [Array.getElem?_toList, found]
  constructor
  · intro u hu
    obtain hu | rfl := Array.mem_or_eq_of_mem_setIfInBounds hu
    · exact balanced.tidy u hu
    · exact Slab.tidy_takeFree sound.counted (balanced.tidy s (Array.mem_of_getElem? found)) taken
  · have sum := total_set (·.page.size) found' t
    rw [slabs]
    change a.privateBytes = _
    rw [balanced.privateBytes]
    rw [page] at sum
    omega
  · have sum := total_set (·.used) found' t
    rw [slabs]
    change a.liveBlocks + 1 = _
    rw [balanced.liveBlocks]
    omega
  · have sum := total_set (fun s => s.used * s.page.blockSize) found' t
    rw [slabs]
    change a.liveBytes + t.page.blockSize = _
    rw [balanced.liveBytes]
    rw [used, page, Nat.add_mul, Nat.one_mul] at sum
    rw [page]
    omega
  · rw [pages_take found page]
    exact balanced.tracks

/-- The arena with a block more in use in the slab that a class lists first. The slab is struck off
with its last block. -/
def reuse (a : Arena) (c : SizeClass) (i : Nat) (rest : List Nat) (t : Slab) : Arena :=
  { a.take i t with roomy := if t.isFull then a.roomy.insert c rest else a.roomy }

theorem balanced_reuse (balanced : a.Balanced) (found : a.slabs[i]? = some s) (sound : s.Sound)
    (taken : s.takeFree = (some k, t)) (c : SizeClass) (rest : List Nat) :
    (a.reuse c i rest t).Balanced := by
  have kept := balanced_take balanced found sound taken
  exact ⟨kept.tidy, kept.privateBytes, kept.liveBlocks, kept.liveBytes, kept.tracks⟩

theorem takeRoomy_cons_eq (c : SizeClass) (rest : List Nat) (found : a.slabs[i]? = some s)
    (taken : s.takeFree = (some k, t)) :
    a.takeRoomy c (i :: rest) = (some (t.block k), a.reuse c i rest t) := by
  have here : (a.take i t).slabs.getD i default = t := by
    rw [Array.getD_eq_getD_getElem?, getElem?_slabs_take found, if_pos rfl]
    rfl
  rw [takeRoomy, takeFrom_eq found taken, reuse]
  simp only [here]
  cases t.isFull <;> rfl

theorem takeOrMap_cons_eq (host : Host) {c : SizeClass} {rest : List Nat} (tries : Nat)
    (listed : a.roomyIn c = i :: rest) (found : a.slabs[i]? = some s)
    (taken : s.takeFree = (some k, t)) :
    a.takeOrMap host c (tries + 1) = (.ok (t.block k), a.reuse c i rest t) := by
  rw [takeOrMap, listed, takeRoomy_cons_eq c rest found taken]

end Taking

def relist (a : Arena) (c : SizeClass) (is : List Nat) : Arena :=
  { a with roomy := a.roomy.insert c is }

theorem roomyIn_relist (a : Arena) (c d : SizeClass) (is : List Nat) :
    (a.relist c is).roomyIn d = if c = d then is else a.roomyIn d := by
  simp [relist, roomyIn, Std.ExtTreeMap.getD_insert]

theorem relist_relist (a : Arena) (c : SizeClass) (is js : List Nat) :
    (a.relist c is).relist c js = a.relist c js := by
  have roomy : (a.roomy.insert c is).insert c js = a.roomy.insert c js := by
    refine Std.ExtTreeMap.ext_getElem? fun d => ?_
    simp only [Std.ExtTreeMap.getElem?_insert]
    split <;> rfl
  rw [relist, relist, roomy]
  rfl

section Mapping

variable {a : Arena}

theorem pages_mapPage (page : Page) (d : Directory) :
    (a.mapPage page d).pages = insert page a.pages := by
  ext p
  rw [Finset.mem_insert, mem_pages, mem_pages, or_comm]
  exact exists_page?_push_iff (s := Slab.fresh page) rfl p

theorem balanced_mapPage (balanced : a.Balanced) {page : Page} {d : Directory}
    (tracks : d.Tracks (insert page a.pages)) : (a.mapPage page d).Balanced := by
  have sum : ∀ f : Slab → Nat, total f (a.mapPage page d).slabs.toList =
      total f a.slabs.toList + f (Slab.fresh page) := fun f => by
    rw [mapPage, Array.toList_push, total_append, total_cons, total_nil, Nat.add_zero]
  constructor
  · intro s hs
    obtain hs | rfl := Array.mem_push.1 hs
    · exact balanced.tidy s hs
    · exact Slab.tidy_fresh page
  · rw [sum]
    exact congrArg (· + page.size) balanced.privateBytes
  · rw [sum]
    exact balanced.liveBlocks
  · rw [sum, show (Slab.fresh page).used = 0 from rfl, Nat.zero_mul]
    exact balanced.liveBytes
  · rw [pages_mapPage]
    exact tracks

theorem getElem?_slabs_mapPage (a : Arena) (page : Page) (d : Directory) :
    (a.mapPage page d).slabs[a.slabs.size]? = some (Slab.fresh page) :=
  Array.getElem?_push_size

end Mapping

def pageBytes (a : Arena) (size : Nat) : Nat :=
  if a.hugeThreshold < size then roundUp (roundUp size minBlock) granule else granule

def pageKind (a : Arena) (size : Nat) (kind : BlockKind) : PageKind :=
  if a.hugeThreshold < size then .huge kind else .small kind

def blockBytes (a : Arena) (size : Nat) (kind : BlockKind) : Nat :=
  if a.hugeThreshold < size then roundUp size minBlock else (SizeClass.of kind size).blockSize

inductive Allocates (host : Host) (a : Arena) (S : Finset Page) (size : Nat) (kind : BlockKind) :
    Arena → Prop
  | reused {i k : Nat} {rest : List Nat} {s t : Slab}
      (listed : a.roomyIn (SizeClass.of kind size) = i :: rest) (found : a.slabs[i]? = some s)
      (taken : s.takeFree = (some k, t)) :
      Allocates host a S size kind (a.reuse (SizeClass.of kind size) i rest t)
  | shared {page : Page} {d : Directory} {k : Nat} {t : Slab} (small : size ≤ a.hugeThreshold)
      (provides : host.Provides a S page d) (bytes : page.size = granule)
      (of_kind : page.kind = .small kind)
      (of_class : page.blockSize = (SizeClass.of kind size).blockSize)
      (unlisted : a.roomyIn (SizeClass.of kind size) = [])
      (taken : (Slab.fresh page).takeFree = (some k, t)) :
      Allocates host a S size kind
        (((a.mapPage page d).relist (SizeClass.of kind size) [a.slabs.size]).reuse
          (SizeClass.of kind size) a.slabs.size [] t)
  | alone {page : Page} {d : Directory} {k : Nat} {t : Slab} (large : a.hugeThreshold < size)
      (provides : host.Provides a S page d)
      (bytes : page.size = roundUp (roundUp size minBlock) granule)
      (of_kind : page.kind = .huge kind) (of_class : page.blockSize = roundUp size minBlock)
      (taken : (Slab.fresh page).takeFree = (some k, t)) :
      Allocates host a S size kind ((a.mapPage page d).take a.slabs.size t)

inductive Refuses (host : Host) (a : Arena) (S : Finset Page) (size : Nat) (kind : BlockKind) :
    Error → Prop
  | invalid (impossible : size = 0 ∨ maxRequest < size) :
      Refuses host a S size kind (.invalidAllocation size)
  | denied {e : Error} (denies : host.Denies a S (a.pageBytes size) (a.pageKind size kind)
      (a.blockBytes size kind) e) : Refuses host a S size kind e

/-- What mapping pages in vain for a class does to an arena and to the pages that its directory has
installed. -/
inductive Swells (host : Host) (c : SizeClass) : Arena → Finset Page → Arena → Finset Page → Prop
  | refl (a : Arena) (S : Finset Page) : Swells host c a S a S
  | step {a b : Arena} {S T : Finset Page} {page : Page} {d : Directory}
      (provides : host.Provides a S page d) (of_kind : page.kind = .small c.kind)
      (of_class : page.blockSize = c.blockSize) (narrow : page.blockCount = 0)
      (unlisted : a.roomyIn c = [])
      (rest : Swells host c ((a.mapPage page d).relist c []) (insert page S) b T) :
      Swells host c a S b T

/-- What a request comes to: it is served, or refused and changes nothing, or it is larger than the
page that it would share and maps pages in vain until one is denied. -/
inductive ComesTo (host : Host) (a : Arena) (S : Finset Page) (size : Nat) (kind : BlockKind) :
    Except Error Block → Arena → Prop
  | served {block : Block} {b : Arena} (done : a.Allocates host S size kind b) :
      ComesTo host a S size kind (.ok block) b
  | refused {e : Error} (refuses : a.Refuses host S size kind e) :
      ComesTo host a S size kind (.error e) a
  | swollen {e : Error} {b : Arena} {T : Finset Page} (wide : granule < size)
      (small : size ≤ a.hugeThreshold) (swells : Swells host (SizeClass.of kind size) a S b T)
      (denies : host.Denies b T granule (.small kind) (SizeClass.of kind size).blockSize e) :
      ComesTo host a S size kind (.error e) b

section Requests

variable {a b : Arena} {host : Host} {S : Finset Page} {size : Nat} {kind : BlockKind}
  {c : SizeClass} {page : Page} {d : Directory}

theorem refuses_of_small {e : Error} (small : size ≤ a.hugeThreshold)
    (denies : host.Denies a S granule (.small kind) (SizeClass.of kind size).blockSize e) :
    a.Refuses host S size kind e := by
  refine .denied ?_
  rw [pageBytes, pageKind, blockBytes, if_neg (Nat.not_lt.2 small), if_neg (Nat.not_lt.2 small),
    if_neg (Nat.not_lt.2 small)]
  exact denies

theorem isFull_fresh {p : Page} : (Slab.fresh p).isFull = true ↔ p.blockCount = 0 := by
  rw [Slab.isFull_iff]
  exact eq_comm

theorem blockCount_eq_zero_iff (cut : page.IsCut) (shared : page.kind = .small kind) :
    page.blockCount = 0 ↔ page.size < page.blockSize := by
  rw [Page.blockCount, shared, if_neg (by simp [PageKind.isHuge]),
    Nat.div_eq_zero_iff_lt cut.blockSize_pos]

theorem exists_takeFree_fresh (opened : page.blockCount ≠ 0) :
    ∃ k t, (Slab.fresh page).takeFree = (some k, t) :=
  Slab.exists_takeFree (Slab.counted_fresh page) (Slab.tidy_fresh page)
    (Bool.eq_false_iff.2 fun full => opened (isFull_fresh.1 full))

theorem exists_takeFree_huge (of_kind : page.kind = .huge kind) :
    ∃ k t, (Slab.fresh page).takeFree = (some k, t) := by
  refine exists_takeFree_fresh ?_
  rw [Page.blockCount, of_kind, if_pos (show (PageKind.huge kind).isHuge = true from rfl)]
  exact Nat.one_ne_zero

theorem exists_takeFree_shared (cut : page.IsCut) (bytes : page.size = granule)
    (of_kind : page.kind = .small kind)
    (of_class : page.blockSize = (SizeClass.of kind size).blockSize) (narrow : size ≤ granule) :
    ∃ k t, (Slab.fresh page).takeFree = (some k, t) := by
  refine exists_takeFree_fresh ?_
  rw [Ne, blockCount_eq_zero_iff cut of_kind, Nat.not_lt, bytes, of_class]
  refine nextPowerOfTwo_le ⟨16, rfl⟩ (Nat.max_le.2 ⟨narrow, ?_⟩)
  decide

theorem size_le_granule (tallied : a.Tallied) (small : size ≤ a.hugeThreshold) :
    size ≤ granule := by
  have bound := (Config.validHugeThreshold_iff.1 tallied.threshold).2.2
  rw [granule] at *
  omega

theorem takeOrMap_eq_error {e : Error} (tries : Nat) (unlisted : a.roomyIn c = [])
    (refused : a.addPage host granule (.small c.kind) c.blockSize = (.error e, b)) :
    a.takeOrMap host c (tries + 1) = (.error e, b) := by
  rw [takeOrMap, unlisted, takeRoomy]
  simp only [refused]

theorem takeOrMap_nil_eq (tries : Nat) (unlisted : a.roomyIn c = [])
    (added : a.addPage host granule (.small c.kind) c.blockSize =
      (.ok a.slabs.size, a.mapPage page d)) :
    a.takeOrMap host c (tries + 1) =
      ((a.mapPage page d).relist c [a.slabs.size]).takeOrMap host c tries := by
  have unlisted' : (a.mapPage page d).roomyIn c = [] := unlisted
  rw [takeOrMap, unlisted, takeRoomy]
  simp only [added, unlisted']
  rfl

theorem takeOrMap_mapPage_eq {k : Nat} {t : Slab} (tries : Nat)
    (taken : (Slab.fresh page).takeFree = (some k, t)) :
    ((a.mapPage page d).relist c [a.slabs.size]).takeOrMap host c (tries + 1) =
      (.ok (t.block k),
        ((a.mapPage page d).relist c [a.slabs.size]).reuse c a.slabs.size [] t) := by
  have alone := roomyIn_relist (a.mapPage page d) c c [a.slabs.size]
  rw [if_pos rfl] at alone
  exact takeOrMap_cons_eq host tries alone (getElem?_slabs_mapPage a page d) taken

theorem takeOrMap_of_listed (serving : a.Serving S) {i : Nat} {rest : List Nat} (tries : Nat)
    (listed : a.roomyIn (SizeClass.of kind size) = i :: rest) {result : Except Error Block}
    (took : a.takeOrMap host (SizeClass.of kind size) (tries + 1) = (result, b)) :
    (∃ block, result = .ok block) ∧ a.Allocates host S size kind b := by
  obtain ⟨s, found, -, -, room⟩ := serving.roomy _ i (listed ▸ List.mem_cons_self)
  obtain ⟨sound, tidy⟩ := serving.slab s (Array.mem_of_getElem? found)
  obtain ⟨k, t, taken⟩ := Slab.exists_takeFree sound.counted tidy room
  rw [takeOrMap_cons_eq host _ listed found taken] at took
  obtain ⟨rfl, rfl⟩ := Prod.mk.inj took
  exact ⟨⟨_, rfl⟩, .reused listed found taken⟩

theorem takeOrMap_cases (serving : a.Serving S) (aligned : host.IsAligned)
    (small : size ≤ a.hugeThreshold) (narrow : size ≤ granule) (tries : Nat)
    {result : Except Error Block}
    (took : a.takeOrMap host (SizeClass.of kind size) (tries + 2) = (result, b)) :
    (∃ block, result = .ok block) ∧ a.Allocates host S size kind b ∨
      ∃ e, a.Refuses host S size kind e ∧ result = .error e ∧ b = a := by
  cases listed : a.roomyIn (SizeClass.of kind size) with
  | cons i rest => exact .inl (takeOrMap_of_listed serving _ listed took)
  | nil =>
    cases adding : a.addPage host granule (.small (SizeClass.of kind size).kind)
        (SizeClass.of kind size).blockSize with
    | mk position a₁ =>
      obtain ⟨page, d, provides, bytes, of_kind, of_class, rfl, rfl⟩ | ⟨e, denies, rfl, rfl⟩ :=
        addPage_cases serving.free.first serving.tracks aligned (cuttable_sizeClass kind size) adding
      · obtain ⟨k, t, taken⟩ :=
          exists_takeFree_shared provides.cut bytes of_kind of_class narrow
        rw [takeOrMap_nil_eq _ listed adding, takeOrMap_mapPage_eq _ taken] at took
        obtain ⟨rfl, rfl⟩ := Prod.mk.inj took
        exact .inl ⟨⟨_, rfl⟩, .shared small provides bytes of_kind of_class listed taken⟩
      · rw [takeOrMap_eq_error _ listed adding] at took
        obtain ⟨rfl, rfl⟩ := Prod.mk.inj took
        exact .inr ⟨e, refuses_of_small small denies, rfl, rfl⟩

theorem allocateHuge_cases (serving : a.Serving S) (aligned : host.IsAligned)
    (large : a.hugeThreshold < size) (positive : 0 < size) {result : Except Error Block}
    (asked : a.allocateHuge host size kind = (result, b)) :
    (∃ block, result = .ok block) ∧ a.Allocates host S size kind b ∨
      ∃ e, a.Refuses host S size kind e ∧ result = .error e ∧ b = a := by
  unfold allocateHuge at asked
  cases adding : a.addPage host (roundUp (roundUp size minBlock) granule) (.huge kind)
      (roundUp size minBlock) with
  | mk position a₁ =>
    simp only [adding] at asked
    obtain ⟨page, d, provides, bytes, of_kind, of_class, rfl, rfl⟩ | ⟨e, denies, rfl, rfl⟩ :=
      addPage_cases serving.free.first serving.tracks aligned (cuttable_huge kind positive) adding
    · obtain ⟨k, t, taken⟩ := exists_takeFree_huge of_kind
      simp only [takeFrom_eq (getElem?_slabs_mapPage a page d) taken] at asked
      obtain ⟨rfl, rfl⟩ := Prod.mk.inj asked
      exact .inl ⟨⟨_, rfl⟩, .alone large provides bytes of_kind of_class taken⟩
    · obtain ⟨rfl, rfl⟩ := Prod.mk.inj asked
      refine .inr ⟨e, .denied ?_, rfl, rfl⟩
      rw [pageBytes, pageKind, blockBytes, if_pos large, if_pos large, if_pos large]
      exact denies

/-- A request is served, or it is refused and leaves the arena as it was, if the page that it would
share is large enough for it. -/
theorem allocate_cases (serving : a.Serving S) (aligned : host.IsAligned)
    (narrow : size ≤ a.hugeThreshold → size ≤ granule) {result : Except Error Block}
    (asked : a.allocate host size kind = (result, b)) :
    (∃ block, result = .ok block) ∧ a.Allocates host S size kind b ∨
      ∃ e, a.Refuses host S size kind e ∧ result = .error e ∧ b = a := by
  unfold allocate at asked
  split at asked
  · next impossible =>
    obtain ⟨rfl, rfl⟩ := Prod.mk.inj asked
    exact .inr ⟨_, .invalid impossible, rfl, rfl⟩
  · next possible =>
    split at asked
    · next large => exact allocateHuge_cases serving aligned large (by omega) asked
    · next small =>
      have small := Nat.le_of_not_lt small
      exact takeOrMap_cases serving aligned small (narrow small) (Directory.capacity - 1) asked

end Requests

end Arena

end MarkSweep
