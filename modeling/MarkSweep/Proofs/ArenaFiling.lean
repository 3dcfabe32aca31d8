import MarkSweep.Proofs.ArenaLedger

set_option autoImplicit false

namespace MarkSweep

namespace Arena

variable {a b : Arena} {host : Host} {S T : Finset Page} {size : Nat} {kind : BlockKind}
  {c : SizeClass} {page : Page} {d : Directory} {k : Nat} {t : Slab}

theorem getElem?_slabs_take_mapPage (a : Arena) (page : Page) (d : Directory) (t : Slab) (j : Nat) :
    ((a.mapPage page d).take a.slabs.size t).slabs[j]? =
      if a.slabs.size = j then some t else a.slabs[j]? := by
  rw [getElem?_slabs_take (getElem?_slabs_mapPage a page d)]
  by_cases last : a.slabs.size = j
  · rw [if_pos last, if_pos last]
  · rw [if_neg last, if_neg last, mapPage, Array.getElem?_push, if_neg (Ne.symm last)]

theorem balanced_relist (balanced : a.Balanced) (c : SizeClass) (is : List Nat) :
    (a.relist c is).Balanced :=
  ⟨balanced.tidy, balanced.privateBytes, balanced.liveBlocks, balanced.liveBytes, balanced.tracks⟩

theorem balanced_of_allocates (balanced : a.Balanced) (sound : a.Sound)
    (done : a.Allocates host a.pages size kind b) : b.Balanced := by
  cases done with
  | reused listed found taken =>
    exact balanced_reuse balanced found (slab_sound sound found) taken _ _
  | @shared page d k t small provides bytes of_kind of_class unlisted taken =>
    exact balanced_reuse (balanced_relist (balanced_mapPage balanced provides.tracks) _ _)
      (getElem?_slabs_mapPage a page d) (Slab.sound_fresh provides.cut) taken _ _
  | @alone page d k t large provides bytes of_kind of_class taken =>
    exact balanced_take (balanced_mapPage balanced provides.tracks)
      (getElem?_slabs_mapPage a page d) (Slab.sound_fresh provides.cut) taken

theorem not_mem_roomyIn_size (listed : a.Listed) (c : SizeClass) :
    a.slabs.size ∉ a.roomyIn c := by
  intro mem
  obtain ⟨s, found, -⟩ := (listed.roomy c _).1 mem
  simp at found

theorem listed_relist_mapPage (listed : a.Listed) (of_kind : page.kind = .small c.kind)
    (of_class : page.blockSize = c.blockSize) (unlisted : a.roomyIn c = []) :
    ((a.mapPage page d).relist c
      (if (Slab.fresh page).isFull then [] else [a.slabs.size])).Listed := by
  have lists : ∀ e, ((a.mapPage page d).relist c
      (if (Slab.fresh page).isFull then [] else [a.slabs.size])).roomyIn e =
      if c = e then (if (Slab.fresh page).isFull then [] else [a.slabs.size]) else a.roomyIn e :=
    fun e => roomyIn_relist (a.mapPage page d) c e _
  refine ⟨fun e j => ?_, fun e => ?_⟩
  · rw [lists]
    change _ ↔ ∃ u, (a.slabs.push (Slab.fresh page))[j]? = some u ∧ u.HasRoom e
    rw [Array.getElem?_push]
    by_cases last : j = a.slabs.size
    · subst last
      have absent := not_mem_roomyIn_size listed e
      have own : (Slab.fresh page).HasRoom e ↔ c = e ∧ (Slab.fresh page).isFull = false := by
        refine ⟨fun room => ⟨?_, room.2.2⟩, ?_⟩
        · exact Slab.HasRoom.class_unique ⟨of_kind, of_class, room.2.2⟩ room
        · rintro ⟨rfl, room⟩
          exact ⟨of_kind, of_class, room⟩
      simp only [if_true, Option.some.injEq, exists_eq_left', own]
      split
      · next same => cases (Slab.fresh page).isFull <;> simp [same]
      · next other => simp [absent, other]
    · rw [if_neg last, ← listed.roomy]
      split
      · next same =>
        rw [← same, unlisted]
        split <;> simp [last]
      · rfl
  · rw [lists]
    split
    · split
      · exact List.nodup_nil
      · exact List.nodup_singleton _
    · exact listed.once e

theorem listed_reuse (listed : a.Listed) {i : Nat} {rest : List Nat} {s : Slab}
    (first : a.roomyIn c = i :: rest) (found : a.slabs[i]? = some s)
    (taken : s.takeFree = (some k, t)) : (a.reuse c i rest t).Listed := by
  have page := Slab.page_of_takeFree taken
  have once := listed.once c
  rw [first, List.nodup_cons] at once
  obtain ⟨s', found', fits⟩ := (listed.roomy c i).1 (first ▸ List.mem_cons_self)
  obtain rfl := Option.some.inj (found.symm.trans found')
  have lists : ∀ e, (a.reuse c i rest t).roomyIn e =
      if t.isFull then (if c = e then rest else a.roomyIn e) else a.roomyIn e := fun e => by
    unfold reuse
    cases t.isFull with
    | true => exact roomyIn_relist (a.take i t) c e rest
    | false => rfl
  refine ⟨fun e j => ?_, fun e => ?_⟩
  · have here := getElem?_slabs_take (t := t) found j
    rw [lists]
    change _ ↔ ∃ u, (a.take i t).slabs[j]? = some u ∧ u.HasRoom e
    rw [here]
    by_cases same : i = j
    · subst same
      have unchanged : t.HasRoom e ↔ s.HasRoom e ∧ t.isFull = false := by
        simp only [Slab.HasRoom, page, fits.2.2, and_true, and_assoc]
      have before : i ∈ a.roomyIn e ↔ s.HasRoom e := by
        rw [listed.roomy, found]
        simp
      simp only [if_true, Option.some.injEq, exists_eq_left', unchanged]
      cases t.isFull with
      | false => simpa using before
      | true =>
        have struck : i ∉ if c = e then rest else a.roomyIn e := by
          split
          · exact once.1
          · next other => exact fun mem => other (Slab.HasRoom.class_unique fits (before.1 mem))
        simp [struck]
    · rw [if_neg same, ← listed.roomy]
      split
      · split
        · next class_eq => rw [← class_eq, first, List.mem_cons, or_iff_right (Ne.symm same)]
        · rfl
      · rfl
  · rw [lists]
    split
    · split
      · exact once.2
      · exact listed.once e
    · exact listed.once e

theorem listed_alone (listed : a.Listed) (of_kind : page.kind = .huge kind)
    (taken : (Slab.fresh page).takeFree = (some k, t)) :
    ((a.mapPage page d).take a.slabs.size t).Listed := by
  refine ⟨fun e j => ?_, listed.once⟩
  change j ∈ a.roomyIn e ↔ _
  rw [getElem?_slabs_take_mapPage]
  by_cases last : a.slabs.size = j
  · subst last
    have absent := not_mem_roomyIn_size listed e
    have closed : ¬ t.HasRoom e := by
      rintro ⟨small, -, -⟩
      rw [Slab.page_of_takeFree taken, show (Slab.fresh page).page.kind = _ from of_kind] at small
      contradiction
    simp [absent, closed]
  · rw [if_neg last, listed.roomy]

theorem listed_of_allocates (listed : a.Listed) (done : a.Allocates host S size kind b) :
    b.Listed := by
  cases done with
  | reused first found taken => exact listed_reuse listed first found taken
  | @shared page d k t small provides bytes of_kind of_class unlisted taken =>
    have room : (Slab.fresh page).isFull = false := by
      have bound := (Slab.free_of_takeFree (Slab.counted_fresh page) taken).1
      exact Bool.eq_false_iff.2 fun full => Nat.not_lt_zero _ (isFull_fresh.1 full ▸ bound)
    have mapped := listed_relist_mapPage (d := d) listed of_kind of_class unlisted
    rw [room] at mapped
    refine listed_reuse mapped ?_ (getElem?_slabs_mapPage a page d) taken
    have alone := roomyIn_relist (a.mapPage page d) (SizeClass.of kind size)
      (SizeClass.of kind size) [a.slabs.size]
    rwa [if_pos rfl] at alone
  | alone large provides bytes of_kind of_class taken => exact listed_alone listed of_kind taken

theorem inUse_mapPage (inUse : ∀ u ∈ a.slabs, 0 < u.used)
    (taken : (Slab.fresh page).takeFree = (some k, t)) :
    ∀ u ∈ ((a.mapPage page d).take a.slabs.size t).slabs, 0 < u.used := by
  intro u hu
  obtain ⟨j, found⟩ := Array.getElem?_of_mem hu
  rw [getElem?_slabs_take_mapPage] at found
  split at found
  · obtain rfl := Option.some.inj found
    rw [Slab.used_of_takeFree taken]
    exact Nat.succ_pos _
  · exact inUse u (Array.mem_of_getElem? found)

theorem inUse_of_allocates (inUse : ∀ u ∈ a.slabs, 0 < u.used)
    (done : a.Allocates host S size kind b) : ∀ u ∈ b.slabs, 0 < u.used := by
  cases done with
  | reused listed found taken =>
    intro u hu
    obtain hu | rfl := Array.mem_or_eq_of_mem_setIfInBounds hu
    · exact inUse u hu
    · rw [Slab.used_of_takeFree taken]
      exact Nat.succ_pos _
  | @shared page d k t small provides bytes of_kind of_class unlisted taken =>
    exact inUse_mapPage (d := d) inUse taken
  | @alone page d k t large provides bytes of_kind of_class taken =>
    exact inUse_mapPage (d := d) inUse taken

theorem NumbersFree.mapPage {n : Nat} (free : a.NumbersFree S (n + 1))
    (provides : host.Provides a S page d) : (a.mapPage page d).NumbersFree (insert page S) n := by
  intro p mem m bound
  have last : page.id = a.mapped := congrArg Page.id provides.described
  have next : (a.mapPage page d).mapped = a.mapped + 1 := rfl
  rw [next]
  obtain rfl | mem := Finset.mem_insert.1 mem
  · omega
  · rw [Nat.add_assoc]
    exact free p mem (1 + m) (by omega)

/-- A page that is mapped in vain leaves an arena whose counts and lists are right. -/
theorem filed_swell (filed : a.Filed) (provides : host.Provides a a.pages page d)
    (of_kind : page.kind = .small c.kind) (of_class : page.blockSize = c.blockSize)
    (narrow : page.blockCount = 0) (unlisted : a.roomyIn c = []) :
    ((a.mapPage page d).relist c []).Filed where
  sound := by
    have lists : d.Lists fun q => (∃ i, a.page? i = some q) ∨ q = page :=
      provides.tracks.lists.congr fun q => by rw [Finset.mem_insert, mem_pages, or_comm]
    have mapped := sound_push filed.sound provides.cut (congrArg Page.id provides.described)
      (a.privateBytes + page.size) lists
    exact sound_insert_roomy mapped fun i hi => absurd hi List.not_mem_nil
  balanced := balanced_relist (balanced_mapPage filed.balanced provides.tracks) c []
  listed := by
    have mapped := listed_relist_mapPage (d := d) filed.listed of_kind of_class unlisted
    rwa [isFull_fresh.2 narrow] at mapped

theorem Swells.filed (swells : a.Swells host c S b T) (filed : a.Filed) (own : S = a.pages) :
    b.Filed := by
  induction swells with
  | refl => exact filed
  | @step a b S T page d provides of_kind of_class narrow unlisted rest ih =>
    subst own
    exact ih (filed_swell filed provides of_kind of_class narrow unlisted)
      (pages_mapPage page d).symm

theorem Swells.hugeThreshold_eq (swells : a.Swells host c S b T) :
    b.hugeThreshold = a.hugeThreshold := by
  induction swells with
  | refl => rfl
  | step provides of_kind of_class narrow unlisted rest ih => exact ih

theorem takeFrom_mapPage_eq (narrow : page.blockCount = 0) (is : List Nat) :
    ((a.mapPage page d).relist c is).takeFrom a.slabs.size =
      (none, (a.mapPage page d).relist c is) := by
  have found : ((a.mapPage page d).relist c is).slabs[a.slabs.size]? = some (Slab.fresh page) :=
    getElem?_slabs_mapPage a page d
  have nothing : (Slab.fresh page).takeFree = (none, Slab.fresh page) := by
    cases taking : (Slab.fresh page).takeFree with
    | mk index t =>
      cases index with
      | none =>
        obtain rfl := Slab.takeFree_eq_none taking
        rw [show (Slab.fresh page).page.blockCount = 0 from narrow]
        rfl
      | some k =>
        obtain ⟨search, -⟩ := Slab.takeFree_eq_some taking
        obtain ⟨-, inside, -⟩ := Bitmap.clearFrom?_eq_some search
        exact absurd (narrow ▸ inside) (Nat.not_lt_zero k)
  have slabs : ((a.mapPage page d).relist c is).slabs.setIfInBounds a.slabs.size (Slab.fresh page) =
      ((a.mapPage page d).relist c is).slabs := by
    refine Array.ext_getElem? fun j => ?_
    rw [Array.getElem?_setIfInBounds]
    split
    · next same => rw [if_pos (Array.getElem?_eq_some_iff.1 found).1, ← same, found]
    · rfl
  simp only [takeFrom, found, nothing, slabs]

theorem Swells.reachable (swells : a.Swells host c S b T) (before : a.directory.Reachable) :
    b.directory.Reachable := by
  induction swells with
  | refl => exact before
  | step provides of_kind of_class narrow unlisted rest ih => exact ih (provides.reachable before)

/-- A class whose list names just a page without a block might as well list none. -/
theorem takeOrMap_relist_eq (narrow : page.blockCount = 0) (tries : Nat) :
    ((a.mapPage page d).relist c [a.slabs.size]).takeOrMap host c (tries + 1) =
      ((a.mapPage page d).relist c []).takeOrMap host c (tries + 1) := by
  have lists : ∀ is, ((a.mapPage page d).relist c is).roomyIn c = is := fun is => by
    rw [roomyIn_relist, if_pos rfl]
  have same : ((a.mapPage page d).relist c [a.slabs.size]).takeRoomy c [a.slabs.size] =
      ((a.mapPage page d).relist c []).takeRoomy c [] := by
    simp only [takeRoomy, takeFrom_mapPage_eq narrow]
    exact congrArg (Prod.mk none) (relist_relist (a.mapPage page d) c [a.slabs.size] [])
  rw [takeOrMap, takeOrMap, lists, lists, same]

/-- While a page without a block is all that a class can get, pages are mapped until one is
denied. -/
theorem swells_of_takeOrMap {tries : Nat} (tracks : a.directory.Tracks S)
    (free : a.NumbersFree S tries) (aligned : host.IsAligned)
    (cuttable : Cuttable (.small c.kind) granule c.blockSize) (wide : granule < c.blockSize)
    (unlisted : a.roomyIn c = []) (enough : Directory.capacity ≤ S.card + tries)
    {result : Except Error Block} (took : a.takeOrMap host c (tries + 1) = (result, b)) :
    ∃ e T, a.Swells host c S b T ∧ host.Denies b T granule (.small c.kind) c.blockSize e ∧
      result = .error e := by
  -- An induction on the tries: each page that is mapped takes one try and one slot.
  induction tries generalizing a S with
  | zero =>
    cases adding : a.addPage host granule (.small c.kind) c.blockSize with
    | mk position a₁ =>
      obtain ⟨page, d, provides, -⟩ | ⟨e, denies, rfl, rfl⟩ :=
        addPage_cases free.first tracks aligned cuttable adding
      · have more := provides.tracks.card_le_capacity
        rw [Finset.card_insert_of_notMem (provides.not_mem free.first)] at more
        omega
      · rw [takeOrMap_eq_error _ unlisted adding] at took
        obtain ⟨rfl, rfl⟩ := Prod.mk.inj took
        exact ⟨e, S, .refl _ _, denies, rfl⟩
  | succ tries ih =>
    cases adding : a.addPage host granule (.small c.kind) c.blockSize with
    | mk position a₁ =>
      obtain ⟨page, d, provides, bytes, of_kind, of_class, rfl, rfl⟩ | ⟨e, denies, rfl, rfl⟩ :=
        addPage_cases free.first tracks aligned cuttable adding
      · have narrow : page.blockCount = 0 := by
          rw [blockCount_eq_zero_iff provides.cut of_kind, bytes, of_class]
          exact wide
        have more := Finset.card_insert_of_notMem (provides.not_mem free.first)
        have unlisted' : ((a.mapPage page d).relist c []).roomyIn c = [] := by
          rw [roomyIn_relist, if_pos rfl]
        have free' : ((a.mapPage page d).relist c []).NumbersFree (insert page S) tries :=
          free.mapPage provides
        rw [takeOrMap_nil_eq _ unlisted adding, takeOrMap_relist_eq narrow] at took
        obtain ⟨e, T, rest, denies, failed⟩ := ih provides.tracks free' unlisted' (by omega) took
        exact ⟨e, T, .step provides of_kind of_class narrow unlisted rest, denies, failed⟩
      · rw [takeOrMap_eq_error _ unlisted adding] at took
        obtain ⟨rfl, rfl⟩ := Prod.mk.inj took
        exact ⟨e, S, .refl _ _, denies, rfl⟩

/-- A small request that is larger than the page it would share is served from a slab that has room
all the same, or pages are mapped in vain. -/
theorem comesTo_of_wide (serving : a.Serving S) (aligned : host.IsAligned)
    (small : size ≤ a.hugeThreshold) (wide : granule < size) {result : Except Error Block}
    (took : a.takeOrMap host (SizeClass.of kind size) (Directory.capacity + 1) = (result, b)) :
    a.ComesTo host S size kind result b := by
  cases listed : a.roomyIn (SizeClass.of kind size) with
  | cons i rest =>
    obtain ⟨⟨block, rfl⟩, done⟩ := takeOrMap_of_listed serving _ listed took
    exact .served done
  | nil =>
    have wide' : granule < (SizeClass.of kind size).blockSize :=
      Nat.lt_of_lt_of_le wide
        (Nat.le_trans (Nat.le_max_left _ _) (le_nextPowerOfTwo (max size minBlock)))
    obtain ⟨e, T, swells, denies, rfl⟩ := swells_of_takeOrMap serving.tracks serving.free aligned
      (cuttable_sizeClass kind size) wide' listed (Nat.le_add_left _ _) took
    exact .swollen wide small swells denies

/-- All that a request comes to, whatever the threshold of the arena. -/
theorem comesTo_of_allocate (serving : a.Serving S) (aligned : host.IsAligned)
    {result : Except Error Block} (asked : a.allocate host size kind = (result, b)) :
    a.ComesTo host S size kind result b := by
  by_cases narrow : size ≤ a.hugeThreshold → size ≤ granule
  · obtain ⟨⟨block, rfl⟩, done⟩ | ⟨e, refuses, rfl, rfl⟩ :=
      allocate_cases serving aligned narrow asked
    · exact .served done
    · exact .refused refuses
  · rw [Classical.not_imp, Nat.not_le] at narrow
    unfold allocate at asked
    split at asked
    · next impossible =>
      obtain ⟨rfl, rfl⟩ := Prod.mk.inj asked
      exact .refused (.invalid impossible)
    · rw [if_neg (Nat.not_lt.2 narrow.1)] at asked
      exact comesTo_of_wide serving aligned narrow.1 narrow.2 asked

theorem filed_allocate (filed : a.Filed) (aligned : host.IsAligned) {result : Except Error Block}
    (asked : a.allocate host size kind = (result, b)) : b.Filed := by
  cases comesTo_of_allocate filed.serving aligned asked with
  | served done =>
    exact {
      sound := (allocate_spec filed.sound aligned asked).1
      balanced := balanced_of_allocates filed.balanced filed.sound done
      listed := listed_of_allocates filed.listed done }
  | refused refuses => exact filed
  | swollen wide small swells denies => exact swells.filed filed rfl

theorem hugeThreshold_allocate (filed : a.Filed) (aligned : host.IsAligned)
    {result : Except Error Block} (asked : a.allocate host size kind = (result, b)) :
    b.hugeThreshold = a.hugeThreshold := by
  cases comesTo_of_allocate filed.serving aligned asked with
  | served done => cases done <;> rfl
  | refused refuses => rfl
  | swollen wide small swells denies => exact swells.hugeThreshold_eq

theorem reachable_directory_allocate (filed : a.Filed) (aligned : host.IsAligned)
    {result : Except Error Block} (asked : a.allocate host size kind = (result, b))
    (before : a.directory.Reachable) : b.directory.Reachable := by
  cases comesTo_of_allocate filed.serving aligned asked with
  | served done =>
    cases done with
    | reused listed found taken => exact before
    | shared small provides bytes of_kind of_class unlisted taken =>
      exact provides.reachable before
    | alone large provides bytes of_kind of_class taken => exact provides.reachable before
  | refused refuses => exact before
  | swollen wide small swells denies => exact swells.reachable before

/-- Where no block of a class is larger than its page, a request is served or changes nothing. -/
theorem allocate_cases_of_tallied (tallied : a.Tallied) (aligned : host.IsAligned)
    {result : Except Error Block} (asked : a.allocate host size kind = (result, b)) :
    a.Allocates host a.pages size kind b ∨ (∃ e, result = .error e) ∧ b = a := by
  obtain ⟨-, done⟩ | ⟨e, -, failed, same⟩ :=
    allocate_cases tallied.filed.serving aligned (size_le_granule tallied) asked
  · exact .inl done
  · exact .inr ⟨⟨e, failed⟩, same⟩

theorem tallied_allocate (tallied : a.Tallied) (aligned : host.IsAligned)
    {result : Except Error Block} (asked : a.allocate host size kind = (result, b)) :
    b.Tallied := by
  have filed := filed_allocate tallied.filed aligned asked
  have threshold := hugeThreshold_allocate tallied.filed aligned asked
  have inUse : ∀ s ∈ b.slabs, 0 < s.used := by
    obtain done | ⟨-, rfl⟩ := allocate_cases_of_tallied tallied aligned asked
    · exact inUse_of_allocates tallied.stocked.inUse done
    · exact tallied.stocked.inUse
  exact ⟨filed.sound, filed.balanced, ⟨filed.listed, inUse⟩, threshold ▸ tallied.threshold⟩

theorem roomyIn_eq_nil_of_pages_ne (tallied : a.Tallied) (aligned : host.IsAligned)
    {result : Except Error Block} (asked : a.allocate host size kind = (result, b))
    (small : size ≤ a.hugeThreshold) (more : b.pages ≠ a.pages) :
    a.roomyIn (SizeClass.of kind size) = [] := by
  obtain done | ⟨-, rfl⟩ := allocate_cases_of_tallied tallied aligned asked
  · cases done with
    | reused listed found taken =>
      exact absurd (pages_take found (Slab.page_of_takeFree taken)) more
    | shared small provides bytes of_kind of_class unlisted taken => exact unlisted
    | alone large provides bytes of_kind of_class taken => omega
  · exact absurd rfl more

end Arena

end MarkSweep
