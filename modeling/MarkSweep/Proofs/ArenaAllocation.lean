import MarkSweep.Arena.Allocate
import MarkSweep.Proofs.ArenaInvariant

set_option autoImplicit false

namespace MarkSweep

structure Cuttable (kind : PageKind) (size blockSize : Nat) : Prop where
  whole : granule ∣ size
  size_pos : 0 < size
  aligned : minBlock ∣ blockSize
  blockSize_pos : 0 < blockSize
  fits : kind.isHuge = true → blockSize ≤ size

namespace Arena

/-- Whether an arena is another one with nothing allocated and nothing written. -/
structure Keeps (a b : Arena) : Prop where
  old : ∀ (i : Nat) (s : Slab), a.slabs[i]? = some s →
    ∃ t, b.slabs[i]? = some t ∧ t.page = s.page ∧ t.contents = s.contents ∧
      t.allocated = s.allocated
  new : ∀ (i : Nat) (t : Slab), b.slabs[i]? = some t → a.slabs[i]? = none →
    ∀ k, t.isAllocated k = false

inductive Takes (a : Arena) (kind : BlockKind) (blockSize : Nat) : Block → Arena → Prop
  | mk {m b : Arena} {i k : Nat} {s t : Slab} (kept : a.Keeps m) (sound : m.Sound)
      (found : m.slabs[i]? = some s) (fits : s.page.kind.contents = kind)
      (cut : s.page.blockSize = blockSize) (taken : s.takeFree = (some k, t))
      (slabs : b.slabs = m.slabs.setIfInBounds i t) : Takes a kind blockSize (s.block k) b

theorem keeps_refl (a : Arena) : a.Keeps a where
  old := fun _ s found => ⟨s, found, rfl, rfl, rfl⟩
  new := fun _ _ found missing => by simp [found] at missing

theorem keeps_of_slabs_eq {a b : Arena} (slabs : b.slabs = a.slabs) : a.Keeps b where
  old := fun _ s found => ⟨s, slabs ▸ found, rfl, rfl, rfl⟩
  new := fun _ _ found missing => by simp [slabs, missing] at found

theorem Keeps.trans {a b c : Arena} (ab : a.Keeps b) (bc : b.Keeps c) : a.Keeps c where
  old := by
    intro i s found
    obtain ⟨t, ht, page, contents, allocated⟩ := ab.old i s found
    obtain ⟨u, hu, page', contents', allocated'⟩ := bc.old i t ht
    exact ⟨u, hu, page'.trans page, contents'.trans contents, allocated'.trans allocated⟩
  new := by
    intro i u hu missing k
    cases ht : b.slabs[i]? with
    | none => exact bc.new i u hu ht k
    | some t =>
      obtain ⟨v, hv, page, -, allocated⟩ := bc.old i t ht
      obtain rfl := Option.some.inj (hu.symm.trans hv)
      have free := ab.new i t ht missing k
      simp only [Slab.isAllocated] at free ⊢
      rw [page, allocated]
      exact free

theorem Takes.of_keeps {a m b : Arena} {kind : BlockKind} {blockSize : Nat} {block : Block}
    (kept : a.Keeps m) (takes : m.Takes kind blockSize block b) :
    a.Takes kind blockSize block b := by
  obtain ⟨kept', sound, found, fits, cut, taken, slabs⟩ := takes
  exact ⟨kept.trans kept', sound, found, fits, cut, taken, slabs⟩

theorem apart_of_lists {d : Directory} {P : Page → Prop} (lists : d.Lists P) {p q : Page}
    (hp : P p) (hq : P q) (wholep : p.IsWhole) (wholeq : q.IsWhole) (different : p ≠ q) :
    p.Apart q := by
  by_contra meets
  rw [Page.Apart, not_or, Nat.not_le, Nat.not_le] at meets
  have px : p.contains (max p.base q.base) = true := by
    rw [Page.contains_iff]
    have := wholep.2.2.1
    unfold Page.limit at *
    lia
  have qx : q.contains (max p.base q.base) = true := by
    rw [Page.contains_iff]
    have := wholeq.2.2.1
    unfold Page.limit at *
    lia
  have atp := (lists _ p).2 ⟨hp, Page.covers_of_contains wholep px⟩
  have atq := (lists _ q).2 ⟨hq, Page.covers_of_contains wholeq qx⟩
  exact different (Option.some.inj (atp.symm.trans atq))

theorem isCut_of_cuttable {kind : PageKind} {size blockSize : Nat}
    (cuttable : Cuttable kind size blockSize) {base : Addr} (aligned : granule ∣ base)
    (positive : 0 < base) (below : base + size < UInt64.size) (id : Nat) :
    ({ id, base, size, kind, blockSize } : Page).IsCut where
  whole := ⟨aligned, cuttable.whole, cuttable.size_pos, below⟩
  base_pos := positive
  aligned := cuttable.aligned
  blockSize_pos := cuttable.blockSize_pos
  fits := cuttable.fits

section Placing

variable {a b : Arena} {host : Host} {size blockSize : Nat} {kind : PageKind}

theorem whole_of_sound (sound : a.Sound) {i : Nat} {p : Page} (found : a.page? i = some p) :
    p.IsCut := by
  obtain ⟨s, hs, rfl⟩ := exists_of_page?_eq_some found
  exact (slab_sound sound hs).cut

/-- An attempt to place a page is the last, or there is another with the directory as it was. -/
theorem place_step {P : Page → Prop} {region : Nat → Option Addr} {table : Nat → Nat → Bool}
    {describe : Addr → Page} (fresh : ∀ base, ¬ P (describe base))
    (whole : ∀ attempt base, region attempt = some base → (describe base).IsWhole)
    {retries : Nat} {d d' : Directory} (lists : d.Lists P) {result : Except Error Page}
    (placed : place region table describe retries d = (result, d')) :
    (∃ attempt base, region attempt = some base ∧ result = .ok (describe base) ∧
        d'.Lists fun q => P q ∨ q = describe base) ∨
      (∃ e, result = .error e ∧ d'.Lists P) ∨
      ∃ left d₁, retries = left + 1 ∧ d₁.Lists P ∧
        place region table describe left d₁ = (result, d') := by
  rw [place.eq_def] at placed
  cases offer : region (maxPlacementRetries - retries) with
  | none =>
    simp only [offer] at placed
    obtain ⟨rfl, rfl⟩ := Prod.mk.inj placed
    exact .inr (.inl ⟨_, rfl, lists⟩)
  | some base =>
    have base_in := Page.base_mem_granules (whole _ base offer)
    cases installing : d.install (table (maxPlacementRetries - retries)) (describe base) with
    | mk outcome d₁ =>
      simp only [offer, installing] at placed
      cases outcome with
      | ok u =>
        obtain ⟨rfl, rfl⟩ := Prod.mk.inj placed
        exact .inl ⟨_, base, offer, rfl,
          Directory.lists_of_install_eq_ok lists (fresh base) base_in installing⟩
      | error e =>
        have lists' := Directory.lists_of_install_eq_error lists (fresh base) installing
        split at placed
        · next same =>
          nomatch (Prod.mk.inj same).1
        · next left p q d₂ same =>
          obtain ⟨-, rfl⟩ := Prod.mk.inj same
          exact .inr (.inr ⟨left, d₁, rfl, lists', placed⟩)
        · next same =>
          obtain ⟨-, rfl⟩ := Prod.mk.inj same
          obtain ⟨rfl, rfl⟩ := Prod.mk.inj placed
          exact .inr (.inl ⟨_, rfl, lists'⟩)

theorem place_spec {P : Page → Prop} {region : Nat → Option Addr} {table : Nat → Nat → Bool}
    {describe : Addr → Page} (fresh : ∀ base, ¬ P (describe base))
    (whole : ∀ attempt base, region attempt = some base → (describe base).IsWhole)
    {retries : Nat} {d d' : Directory} (lists : d.Lists P) {result : Except Error Page}
    (placed : place region table describe retries d = (result, d')) :
    (∃ attempt base, region attempt = some base ∧ result = .ok (describe base) ∧
        d'.Lists fun q => P q ∨ q = describe base) ∨
      ∃ e, result = .error e ∧ d'.Lists P := by
  induction retries generalizing d with
  | zero =>
    obtain done | failed | ⟨left, d₁, more, -⟩ := place_step fresh whole lists placed
    · exact .inl done
    · exact .inr failed
    · nomatch more
  | succ retries ih =>
    obtain done | failed | ⟨left, d₁, more, lists', again⟩ := place_step fresh whole lists placed
    · exact .inl done
    · exact .inr failed
    · obtain rfl := Nat.succ.inj more
      exact ih lists' again

section Pushed

variable {c : Arena} {s : Slab} (slabs : c.slabs = a.slabs.push s)
include slabs

theorem page?_push (i : Nat) :
    c.page? i = if i = a.slabs.size then some s.page else a.page? i := by
  simp only [page?, slabs, Array.getElem?_push]
  split <;> rfl

theorem page?_push_of_some {i : Nat} {p : Page} (found : a.page? i = some p) :
    c.page? i = some p := by
  have old : i ≠ a.slabs.size := by
    rintro rfl
    simp [page?] at found
  rw [page?_push slabs, if_neg old, found]

theorem exists_page?_push_iff (p : Page) :
    (∃ i, c.page? i = some p) ↔ (∃ i, a.page? i = some p) ∨ p = s.page := by
  constructor
  · rintro ⟨i, found⟩
    rw [page?_push slabs] at found
    split at found
    · exact .inr (Option.some.inj found).symm
    · exact .inl ⟨i, found⟩
  · rintro (⟨i, found⟩ | rfl)
    · exact ⟨i, page?_push_of_some slabs found⟩
    · exact ⟨a.slabs.size, by rw [page?_push slabs, if_pos rfl]⟩

theorem byBase_push (sound : a.Sound) (other : ∀ i p, a.page? i = some p → p.base ≠ s.page.base)
    (byBase : c.byBase = a.byBase.insert s.page.base a.slabs.size) (b : Addr) (i : Nat) :
    c.byBase[b]? = some i ↔ ∃ p, c.page? i = some p ∧ p.base = b := by
  rw [page?_push slabs, byBase]
  simp only [Std.ExtTreeMap.getElem?_insert, Nat.compare_eq_eq]
  by_cases new : i = a.slabs.size
  · subst new
    have unknown : a.page? a.slabs.size = none := by simp [page?]
    simp only [if_true, Option.some.injEq, exists_eq_left']
    constructor
    · intro found
      split at found
      · next same => exact same
      · obtain ⟨p, hp, -⟩ := (sound.byBase b _).1 found
        simp [unknown] at hp
    · exact fun same => if_pos same
  · rw [if_neg new, ← sound.byBase b i]
    split
    · next same =>
      refine iff_of_false (fun found => new (Option.some.inj found).symm) fun found => ?_
      obtain ⟨p, hp, same'⟩ := (sound.byBase b i).1 found
      exact other i p hp (same'.trans same.symm)
    · exact Iff.rfl

end Pushed

theorem sound_push (sound : a.Sound) {page : Page} {d : Directory} (cut : page.IsCut)
    (id : page.id = a.mapped) (privateBytes : Nat)
    (lists : d.Lists fun q => (∃ i, a.page? i = some q) ∨ q = page) :
    { a with
      directory := d
      slabs := a.slabs.push (Slab.fresh page)
      byBase := a.byBase.insert page.base a.slabs.size
      privateBytes
      mapped := a.mapped + 1 }.Sound := by
  have apart : ∀ {i q}, a.page? i = some q → q.Apart page := by
    intro i q found
    have before := sound.numbered i q found
    have different : q ≠ page := by
      rintro rfl
      omega
    exact apart_of_lists lists (.inl ⟨i, found⟩) (.inr rfl) (whole_of_sound sound found).whole
      cut.whole different
  have other : ∀ i q, a.page? i = some q → q.base ≠ page.base := fun i q found =>
    (apart found).base_ne (whole_of_sound sound found).whole.2.2.1 cut.whole.2.2.1
  constructor
  · intro s hs
    obtain hs | rfl := Array.mem_push.1 hs
    · exact sound.slab s hs
    · exact Slab.sound_fresh cut
  · intro i j p q hp hq different
    rw [page?_push rfl] at hp hq
    split at hp <;> split at hq
    · omega
    · obtain rfl := Option.some.inj hp
      exact (apart hq).symm
    · obtain rfl := Option.some.inj hq
      exact apart hp
    · exact sound.apart i j p q hp hq different
  · intro i p hp
    rw [page?_push rfl] at hp
    split at hp
    · obtain rfl := Option.some.inj hp
      exact id ▸ Nat.lt_succ_self _
    · exact Nat.lt_succ_of_lt (sound.numbered i p hp)
  · rw [funext fun q => propext (exists_page?_push_iff rfl q)]
    exact lists
  · exact byBase_push rfl sound other rfl
  · intro c i hi
    obtain ⟨p, hp, fits⟩ := sound.roomy c i hi
    exact ⟨p, page?_push_of_some rfl hp, fits⟩

theorem addPage_spec (sound : a.Sound) (aligned : host.IsAligned)
    (cuttable : Cuttable kind size blockSize) {result : Except Error Nat}
    (added : a.addPage host size kind blockSize = (result, b)) :
    b.Sound ∧ a.Keeps b ∧ b.roomy = a.roomy ∧
      ∀ i, result = .ok i → ∃ page, page.kind = kind ∧ page.blockSize = blockSize ∧
        b.slabs[i]? = some (Slab.fresh page) := by
  unfold addPage at added
  split at added
  · obtain ⟨rfl, rfl⟩ := Prod.mk.inj added
    exact ⟨sound, keeps_refl a, rfl, fun i h => by simp at h⟩
  · have fresh : ∀ base, ¬ ∃ i, a.page? i =
        some ({ id := a.mapped, base, size, kind, blockSize } : Page) := by
      rintro base ⟨i, found⟩
      exact Nat.lt_irrefl _ (sound.numbered i _ found)
    have cut : ∀ attempt base, host.region a size attempt = some base →
        ({ id := a.mapped, base, size, kind, blockSize } : Page).IsCut := by
      intro attempt base offer
      obtain ⟨whole, positive, below⟩ := aligned a size attempt base offer
      exact isCut_of_cuttable cuttable whole positive below _
    simp only at added
    cases placing : place (host.region a size) host.table
        (fun base => ({ id := a.mapped, base, size, kind, blockSize } : Page))
        maxPlacementRetries a.directory with
    | mk outcome d =>
      rw [placing] at added
      obtain ⟨attempt, base, offer, rfl, lists⟩ | ⟨e, rfl, lists⟩ := place_spec fresh
        (fun attempt base offer => (cut attempt base offer).whole) sound.directory placing
      · obtain ⟨rfl, rfl⟩ := Prod.mk.inj added
        refine ⟨sound_push sound (cut attempt base offer) rfl _ lists, ⟨?_, ?_⟩, rfl, ?_⟩
        · intro i s found
          have inside := (Array.getElem?_eq_some_iff.1 found).1
          refine ⟨s, ?_, rfl, rfl, rfl⟩
          rw [Array.getElem?_push, if_neg (Nat.ne_of_lt inside)]
          exact found
        · intro i t found missing k
          rw [Array.getElem?_push] at found
          split at found
          · obtain rfl := Option.some.inj found
            simp [Slab.isAllocated, Slab.fresh]
          · simp [found] at missing
        · intro i h
          obtain rfl := Except.ok.inj h
          exact ⟨_, rfl, rfl, Array.getElem?_push_size⟩
      · obtain ⟨rfl, rfl⟩ := Prod.mk.inj added
        refine ⟨⟨sound.slab, sound.apart, sound.numbered, lists, sound.byBase, sound.roomy⟩,
          keeps_of_slabs_eq rfl, rfl, fun i h => by simp at h⟩

end Placing

section Taking

variable {a b : Arena} {i : Nat} {s : Slab}

theorem sound_setSlab (sound : a.Sound) (found : a.slabs[i]? = some s) {t : Slab} (ht : t.Sound)
    (page : t.page = s.page) (liveBlocks liveBytes : Nat) :
    { a with slabs := a.slabs.setIfInBounds i t, liveBlocks, liveBytes }.Sound :=
  sound_of_same_pages sound (slab_sound_of_setIfInBounds sound rfl ht)
    (page?_setIfInBounds found rfl page) rfl rfl rfl fun _ _ h => h

theorem keeps_of_setIfInBounds (found : a.slabs[i]? = some s) {t : Slab}
    (slabs : b.slabs = a.slabs.setIfInBounds i t) (page : t.page = s.page)
    (contents : t.contents = s.contents) (allocated : t.allocated = s.allocated) : a.Keeps b where
  old := by
    intro j u hu
    rw [slabs, Array.getElem?_setIfInBounds]
    by_cases same : i = j
    · subst same
      obtain rfl := Option.some.inj (found.symm.trans hu)
      rw [if_pos rfl, if_pos (Array.getElem?_eq_some_iff.1 found).1]
      exact ⟨t, rfl, page, contents, allocated⟩
    · rw [if_neg same]
      exact ⟨u, hu, rfl, rfl, rfl⟩
  new := by
    intro j u hu missing
    have beyond : a.slabs.size ≤ j := Array.getElem?_eq_none_iff.1 missing
    have inside := (Array.getElem?_eq_some_iff.1 hu).1
    rw [slabs, Array.size_setIfInBounds] at inside
    omega

theorem takeFrom_spec (sound : a.Sound) (found : a.slabs[i]? = some s) {result : Option Block}
    (took : a.takeFrom i = (result, b)) :
    b.Sound ∧ b.page? = a.page? ∧
      (result = none ∧ a.Keeps b ∨ ∃ block, result = some block ∧
        a.Takes s.page.kind.contents s.page.blockSize block b) := by
  have whole := slab_sound sound found
  unfold takeFrom at took
  simp only [found] at took
  cases taking : s.takeFree with
  | mk index t =>
    rw [taking] at took
    cases index with
    | none =>
      obtain ⟨rfl, rfl⟩ := Prod.mk.inj took
      obtain rfl := Slab.takeFree_eq_none taking
      have sound' := sound_setSlab sound found
        (Slab.sound_withCursor whole s.page.blockCount) rfl a.liveBlocks a.liveBytes
      exact ⟨sound', page?_setIfInBounds found rfl rfl,
        .inl ⟨rfl, keeps_of_setIfInBounds found rfl rfl rfl rfl⟩⟩
    | some k =>
      obtain ⟨rfl, rfl⟩ := Prod.mk.inj took
      have page : t.page = s.page := by
        obtain ⟨-, rfl⟩ := Slab.takeFree_eq_some taking
        rfl
      refine ⟨sound_setSlab sound found (Slab.sound_takeFree whole taking) page _ _,
        page?_setIfInBounds found rfl page, .inr ⟨_, rfl, ?_⟩⟩
      rw [page]
      exact .mk (keeps_refl a) sound found rfl rfl taking rfl

def AreOf (a : Arena) (c : SizeClass) (is : List Nat) : Prop :=
  ∀ i ∈ is, ∃ p, a.page? i = some p ∧ p.kind = .small c.kind ∧ p.blockSize = c.blockSize

theorem sound_insert_roomy (sound : a.Sound) {c : SizeClass} {is : List Nat} (fits : a.AreOf c is) :
    { a with roomy := a.roomy.insert c is }.Sound := by
  refine ⟨sound.slab, sound.apart, sound.numbered, sound.directory, sound.byBase,
    fun d i hi => ?_⟩
  simp only [roomyIn, Std.ExtTreeMap.getD_insert, Std.compare_eq_iff_eq] at hi
  split at hi
  · next same => exact same ▸ fits i hi
  · exact sound.roomy d i hi

theorem takeRoomy_spec {c : SizeClass} {is : List Nat} (sound : a.Sound) (fits : a.AreOf c is)
    {result : Option Block} (took : a.takeRoomy c is = (result, b)) :
    b.Sound ∧
      (result = none ∧ a.Keeps b ∨
        ∃ block, result = some block ∧ a.Takes c.kind c.blockSize block b) := by
  induction is generalizing a with
  | nil =>
    obtain ⟨rfl, rfl⟩ := Prod.mk.inj took
    exact ⟨sound, .inl ⟨rfl, keeps_refl a⟩⟩
  | cons i rest ih =>
    obtain ⟨p, hp, kind, blockSize⟩ := fits i List.mem_cons_self
    obtain ⟨s, found, rfl⟩ := exists_of_page?_eq_some hp
    unfold takeRoomy at took
    cases taking : a.takeFrom i with
    | mk got a₁ =>
      obtain ⟨sound₁, pages, outcome⟩ := takeFrom_spec sound found taking
      have fits₁ : a₁.AreOf c rest := by
        intro j hj
        rw [pages]
        exact fits j (List.mem_cons_of_mem i hj)
      have trimmed := sound_insert_roomy sound₁ fits₁
      rw [taking] at took
      obtain ⟨rfl, kept⟩ | ⟨block, rfl, takes⟩ := outcome
      · obtain ⟨sound₂, outcome₂⟩ := ih trimmed fits₁ took
        have kept₁ : a.Keeps { a₁ with roomy := a₁.roomy.insert c rest } :=
          kept.trans (keeps_of_slabs_eq rfl)
        refine ⟨sound₂, ?_⟩
        obtain ⟨rfl, kept₂⟩ | ⟨block, rfl, takes⟩ := outcome₂
        · exact .inl ⟨rfl, kept₁.trans kept₂⟩
        · exact .inr ⟨block, rfl, takes.of_keeps kept₁⟩
      · rw [kind, blockSize] at takes
        simp only at took
        split at took
        · obtain ⟨rfl, rfl⟩ := Prod.mk.inj took
          refine ⟨trimmed, .inr ⟨block, rfl, ?_⟩⟩
          obtain ⟨kept, sound, found, fits, cut, taken, slabs⟩ := takes
          exact .mk kept sound found fits cut taken slabs
        · obtain ⟨rfl, rfl⟩ := Prod.mk.inj took
          exact ⟨sound₁, .inr ⟨block, rfl, takes⟩⟩

theorem takeOrMap_spec {host : Host} (aligned : host.IsAligned) {c : SizeClass}
    (cuttable : Cuttable (.small c.kind) granule c.blockSize) {tries : Nat} (sound : a.Sound)
    {result : Except Error Block} (took : a.takeOrMap host c tries = (result, b)) :
    b.Sound ∧
      ((∃ e, result = .error e) ∧ a.Keeps b ∨
        ∃ block, result = .ok block ∧ a.Takes c.kind c.blockSize block b) := by
  induction tries generalizing a with
  | zero =>
    obtain ⟨rfl, rfl⟩ := Prod.mk.inj took
    exact ⟨sound, .inl ⟨⟨_, rfl⟩, keeps_refl a⟩⟩
  | succ tries ih =>
    unfold takeOrMap at took
    cases taking : a.takeRoomy c (a.roomyIn c) with
    | mk got a₁ =>
      obtain ⟨sound₁, outcome⟩ := takeRoomy_spec sound (sound.roomy c) taking
      rw [taking] at took
      obtain ⟨rfl, kept₁⟩ | ⟨block, rfl, takes⟩ := outcome
      · cases adding : a₁.addPage host granule (.small c.kind) c.blockSize with
        | mk position a₂ =>
          obtain ⟨sound₂, kept₂, roomy, fresh⟩ :=
            addPage_spec sound₁ aligned cuttable adding
          simp only [adding] at took
          cases position with
          | error e =>
            obtain ⟨rfl, rfl⟩ := Prod.mk.inj took
            exact ⟨sound₂, .inl ⟨⟨e, rfl⟩, kept₁.trans kept₂⟩⟩
          | ok i =>
            obtain ⟨page, kind, blockSize, found⟩ := fresh i rfl
            have fits : a₂.AreOf c (i :: a₂.roomyIn c) := by
              intro j hj
              obtain rfl | hj := List.mem_cons.1 hj
              · exact ⟨page, page?_eq_some found, kind, blockSize⟩
              · exact sound₂.roomy c j hj
            have kept₃ : a.Keeps { a₂ with roomy := a₂.roomy.insert c (i :: a₂.roomyIn c) } :=
              (kept₁.trans kept₂).trans (keeps_of_slabs_eq rfl)
            obtain ⟨sound₃, outcome₃⟩ := ih (sound_insert_roomy sound₂ fits) took
            refine ⟨sound₃, ?_⟩
            obtain ⟨failed, kept₄⟩ | ⟨block, rfl, takes⟩ := outcome₃
            · exact .inl ⟨failed, kept₃.trans kept₄⟩
            · exact .inr ⟨block, rfl, takes.of_keeps kept₃⟩
      · obtain ⟨rfl, rfl⟩ := Prod.mk.inj took
        exact ⟨sound₁, .inr ⟨block, rfl, takes⟩⟩

end Taking

theorem cuttable_sizeClass (kind : BlockKind) (size : Nat) :
    Cuttable (.small kind) granule (SizeClass.of kind size).blockSize := by
  have low := le_nextPowerOfTwo (max size minBlock)
  obtain ⟨k, power⟩ := isPowerOfTwo_nextPowerOfTwo (max size minBlock)
  have exponent : 4 ≤ k := by
    refine (Nat.pow_le_pow_iff_right (a := 2) (by decide)).1 ?_
    rw [← power]
    exact Nat.le_trans (Nat.le_max_right size minBlock) low
  exact {
    whole := Nat.dvd_refl _
    size_pos := by decide
    aligned := by
      change minBlock ∣ nextPowerOfTwo (max size minBlock)
      rw [power]
      exact Nat.pow_dvd_pow 2 exponent
    blockSize_pos := by
      change 0 < nextPowerOfTwo (max size minBlock)
      rw [power]
      exact Nat.two_pow_pos k
    fits := fun huge => by simp [PageKind.isHuge] at huge }

theorem le_roundUp (n unit : Nat) (positive : 0 < unit) : n ≤ roundUp n unit := by
  have := Nat.div_add_mod (n + unit - 1) unit
  have := Nat.mod_lt (n + unit - 1) positive
  rw [roundUp, Nat.mul_comm]
  omega

theorem dvd_roundUp (n unit : Nat) : unit ∣ roundUp n unit := Nat.dvd_mul_left _ _

theorem cuttable_huge (kind : BlockKind) {size : Nat} (positive : 0 < size) :
    Cuttable (.huge kind) (roundUp (roundUp size minBlock) granule) (roundUp size minBlock) := by
  have low := le_roundUp size minBlock (by decide)
  have fits := le_roundUp (roundUp size minBlock) granule (by decide)
  exact {
    whole := dvd_roundUp _ _
    size_pos := by omega
    aligned := dvd_roundUp _ _
    blockSize_pos := by omega
    fits := fun _ => fits }

section Requests

variable {a b : Arena} {host : Host} {size : Nat} {kind : BlockKind}

/-- A request is refused, or it takes a free block that is large enough. -/
theorem allocate_spec (sound : a.Sound) (aligned : host.IsAligned) {result : Except Error Block}
    (asked : a.allocate host size kind = (result, b)) :
    b.Sound ∧ ((∃ e, result = .error e) ∧ a.Keeps b ∨
      ∃ block blockSize, result = .ok block ∧ size ≤ blockSize ∧
        a.Takes kind blockSize block b) := by
  unfold allocate at asked
  split at asked
  · obtain ⟨rfl, rfl⟩ := Prod.mk.inj asked
    exact ⟨sound, .inl ⟨⟨_, rfl⟩, keeps_refl a⟩⟩
  · next possible =>
    have positive : 0 < size := by omega
    split at asked
    · unfold allocateHuge at asked
      cases adding : a.addPage host (roundUp (roundUp size minBlock) granule) (.huge kind)
          (roundUp size minBlock) with
      | mk position a₁ =>
        obtain ⟨sound₁, kept₁, -, fresh⟩ :=
          addPage_spec sound aligned (cuttable_huge kind positive) adding
        simp only [adding] at asked
        cases position with
        | error e =>
          obtain ⟨rfl, rfl⟩ := Prod.mk.inj asked
          exact ⟨sound₁, .inl ⟨⟨e, rfl⟩, kept₁⟩⟩
        | ok i =>
          obtain ⟨page, hkind, blockSize, found⟩ := fresh i rfl
          cases taking : a₁.takeFrom i with
          | mk got a₂ =>
            obtain ⟨sound₂, -, outcome⟩ := takeFrom_spec sound₁ found taking
            rw [show (Slab.fresh page).page.kind.contents = kind from by
              rw [Slab.fresh, hkind]; rfl] at outcome
            simp only [taking] at asked
            obtain ⟨rfl, kept₂⟩ | ⟨block, rfl, takes⟩ := outcome
            · obtain ⟨rfl, rfl⟩ := Prod.mk.inj asked
              exact ⟨sound₂, .inl ⟨⟨_, rfl⟩, kept₁.trans kept₂⟩⟩
            · obtain ⟨rfl, rfl⟩ := Prod.mk.inj asked
              refine ⟨sound₂, .inr ⟨block, _, rfl, ?_, takes.of_keeps kept₁⟩⟩
              rw [Slab.fresh, blockSize]
              exact le_roundUp size minBlock (by decide)
    · obtain ⟨sound', outcome⟩ := takeOrMap_spec aligned (cuttable_sizeClass kind size) sound asked
      refine ⟨sound', outcome.imp_right ?_⟩
      rintro ⟨block, rfl, takes⟩
      exact ⟨block, _, rfl, Nat.le_trans (Nat.le_max_left _ _) (le_nextPowerOfTwo _), takes⟩

end Requests

section Taken

variable {a b : Arena} {kind : BlockKind} {blockSize : Nat} {block c : Block}

theorem isAllocated_congr {s t : Slab} (page : t.page = s.page)
    (allocated : t.allocated = s.allocated) (k : Nat) :
    t.isAllocated k = s.isAllocated k := by
  rw [Slab.isAllocated, Slab.isAllocated, page, allocated]

theorem Keeps.holds_iff (kept : a.Keeps b) (c : Block) : b.Holds c ↔ a.Holds c := by
  rw [Arena.holds_iff, Arena.holds_iff]
  constructor
  · rintro ⟨i, t, k, found, allocated, rfl⟩
    cases hs : a.slabs[i]? with
    | none => simp [kept.new i t found hs k] at allocated
    | some s =>
      obtain ⟨u, hu, page, -, same⟩ := kept.old i s hs
      obtain rfl := Option.some.inj (found.symm.trans hu)
      rw [isAllocated_congr page same] at allocated
      exact ⟨i, s, k, hs, allocated, by rw [Slab.block, page, Slab.block]⟩
  · rintro ⟨i, s, k, found, allocated, rfl⟩
    obtain ⟨t, ht, page, -, same⟩ := kept.old i s found
    rw [← isAllocated_congr page same] at allocated
    exact ⟨i, t, k, ht, allocated, by rw [Slab.block, Slab.block, page]⟩

theorem Keeps.carries (kept : a.Keeps b) (c : Block) : a.Carries b c := by
  intro i s k found allocated _
  obtain ⟨t, ht, page, contents, same⟩ := kept.old i s found
  refine ⟨i, t, ht, page, ?_, fun x _ => by rw [Slab.read, Slab.read, page, contents]⟩
  rw [isAllocated_congr page same]
  exact allocated

theorem getElem?_slabs_of_set {m : Arena} {i : Nat} {s t : Slab} (found : m.slabs[i]? = some s)
    (slabs : b.slabs = m.slabs.setIfInBounds i t) (j : Nat) :
    b.slabs[j]? = if i = j then some t else m.slabs[j]? := by
  rw [slabs, Array.getElem?_setIfInBounds, if_pos (Array.getElem?_eq_some_iff.1 found).1]

theorem Takes.size_eq (takes : a.Takes kind blockSize block b) : block.size = blockSize := by
  obtain ⟨-, -, -, -, cut, -, -⟩ := takes
  exact cut

theorem Takes.exists_slab (takes : a.Takes kind blockSize block b) :
    ∃ (i : Nat) (t : Slab) (k : Nat), b.slabs[i]? = some t ∧ t.isAllocated k = true ∧
      block = t.block k ∧ t.page.kind.contents = kind ∧ ∀ x, block.Contains x → t.read x = 0 := by
  obtain ⟨kept, sound, found, fits, cut, taken, slabs⟩ := takes
  rename_i m i k s t
  have whole := slab_sound sound found
  have here := getElem?_slabs_of_set found slabs i
  rw [if_pos rfl] at here
  have grown := Slab.isAllocated_takeFree whole.counted taken k
  obtain ⟨bound, free⟩ := Slab.free_of_takeFree whole.counted taken
  obtain ⟨-, rfl⟩ := Slab.takeFree_eq_some taken
  refine ⟨i, _, k, here, ?_, rfl, fits, fun x inside => ?_⟩
  · rw [grown]
    simp
  · exact Slab.read_eq_zero_of_free whole bound free inside.1 inside.2

theorem Takes.holds_iff (takes : a.Takes kind blockSize block b) (c : Block) :
    b.Holds c ↔ a.Holds c ∨ c = block := by
  obtain ⟨kept, sound, found, fits, cut, taken, slabs⟩ := takes
  rename_i m i k s t
  have get := getElem?_slabs_of_set found slabs
  have grown := Slab.isAllocated_takeFree (slab_sound sound found).counted taken
  have page : t.page = s.page := by
    obtain ⟨-, rfl⟩ := Slab.takeFree_eq_some taken
    rfl
  rw [← kept.holds_iff, Arena.holds_iff, Arena.holds_iff]
  constructor
  · rintro ⟨j, u, l, hu, allocated, rfl⟩
    rw [get] at hu
    split at hu
    · obtain rfl := Option.some.inj hu
      rw [grown, Bool.or_eq_true, decide_eq_true_iff] at allocated
      rw [Slab.block, page]
      obtain before | rfl := allocated
      · exact .inl ⟨i, s, l, found, before, rfl⟩
      · exact .inr rfl
    · exact .inl ⟨j, u, l, hu, allocated, rfl⟩
  · rintro (⟨j, u, l, hu, allocated, rfl⟩ | rfl)
    · by_cases same : i = j
      · subst same
        obtain rfl := Option.some.inj (found.symm.trans hu)
        refine ⟨i, t, l, by rw [get, if_pos rfl], ?_, by rw [Slab.block, Slab.block, page]⟩
        rw [grown, allocated, Bool.true_or]
      · exact ⟨j, u, l, by rw [get, if_neg same]; exact hu, allocated, rfl⟩
    · refine ⟨i, t, k, by rw [get, if_pos rfl], ?_, by rw [Slab.block, Slab.block, page]⟩
      rw [grown]
      simp

theorem Takes.not_holds (takes : a.Takes kind blockSize block b) : ¬ a.Holds block := by
  obtain ⟨kept, sound, found, fits, cut, taken, slabs⟩ := takes
  rename_i m i k s t
  rw [← kept.holds_iff, Arena.holds_iff]
  rintro ⟨j, u, l, hu, allocated, same⟩
  have whole := slab_sound sound found
  obtain ⟨bound, free⟩ := Slab.free_of_takeFree whole.counted taken
  have start : s.page.blockAddr k = u.page.blockAddr l := congrArg Block.addr same
  have inside := contains_blockAddr sound hu allocated
  have inside' : s.page.contains (s.page.blockAddr k) = true :=
    Page.contains_of_mem_block whole.cut bound (Nat.le_refl _)
      (Nat.lt_add_of_pos_right whole.cut.blockSize_pos)
  rw [← start] at inside
  obtain rfl := position_unique sound found hu inside' inside
  obtain rfl := Option.some.inj (found.symm.trans hu)
  obtain rfl := Page.blockAddr_inj whole.cut start
  simp [free] at allocated

theorem Takes.carries (takes : a.Takes kind blockSize block b) (c : Block) : a.Carries b c := by
  obtain ⟨kept, sound, found, fits, cut, taken, slabs⟩ := takes
  rename_i m i k s t
  have get := getElem?_slabs_of_set found slabs
  refine (kept.carries c).trans fun j u l hu allocated here => ?_
  by_cases same : i = j
  · subst same
    obtain rfl := Option.some.inj (found.symm.trans hu)
    have grown := Slab.isAllocated_takeFree (slab_sound sound found).counted taken l
    rw [allocated, Bool.true_or] at grown
    have there := get i
    rw [if_pos rfl] at there
    obtain ⟨-, rfl⟩ := Slab.takeFree_eq_some taken
    exact ⟨i, _, there, rfl, grown, fun x _ => rfl⟩
  · have there := get j
    rw [if_neg same, hu] at there
    exact ⟨j, u, there, rfl, allocated, fun x _ => rfl⟩

end Taken

end Arena

end MarkSweep
