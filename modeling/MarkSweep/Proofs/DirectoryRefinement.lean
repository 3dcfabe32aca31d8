import MarkSweep.Proofs.DirectoryTables
import Mathlib.Data.Finset.Prod

set_option autoImplicit false

/-!
# The page directory as a set of pages

Every directory that installing and removing pages leads to stands for a finite set of pages: a
look-up finds a page of the set by its bounds, and the counts are those of the set. Installing
adds to the set and removing takes out of it, except that a page is refused where another page of
the set shares a slot with it or a table cannot be had. A refusal gives back the directory itself.
-/

namespace MarkSweep

namespace Directory

def tablesOf (S : Finset Page) : Finset Nat :=
  S.biUnion fun p => (p.granules.map tableIndex).toFinset

/-- Whether a page of a set shares a slot with another page. -/
def Blocks (S : Finset Page) (p q : Page) : Prop :=
  q ∈ S ∧ q ≠ p ∧ ∃ g ∈ p.granules, ∃ h ∈ q.granules, Aliases h g

/-- Whether look-ups and counts of a directory are those of a set of pages. -/
structure Represents (d : Directory) (S : Finset Page) : Prop where
  whole : ∀ p ∈ S, p.IsWhole
  lookup_iff : ∀ a p, d.lookup a = some p ↔ p ∈ S ∧ p.base ≤ a ∧ a < p.limit
  page_count : d.pageCount = S.card
  table_count : d.tableCount = (tablesOf S).card

/-- What installing a page, under any supply of tables, and removing it come to. -/
structure ActsAs (d : Directory) (S : Finset Page) (p : Page) : Prop where
  present : ∀ grant, p ∈ S → d.install grant p = (.ok (), d)
  collided : ∀ grant, (∃ q, Blocks S p q) →
    ∃ q, Blocks S p q ∧ d.install grant p = (.error (.directoryCollision p.base q.base), d)
  added : ∀ grant, p ∉ S → (∀ q, ¬ Blocks S p q) →
    (∀ g ∈ p.granules, tableIndex g ∈ tablesOf S ∨ grant (tableIndex g) = true) →
    ∃ d', d.install grant p = (.ok (), d') ∧ d'.Represents (insert p S)
  exhausted : ∀ grant, p ∉ S → (∀ q, ¬ Blocks S p q) →
    (∃ g ∈ p.granules, tableIndex g ∉ tablesOf S ∧ grant (tableIndex g) = false) →
    d.install grant p = (.error .directoryExhausted, d)
  removed : (d.remove p).Represents (S.erase p)
  absent : p ∉ S → d.remove p = d

/-- Whether the slots, the tables and the page count of a directory are those of a set of
pages. -/
structure Tracks (d : Directory) (S : Finset Page) : Prop where
  lists : d.Lists (· ∈ S)
  tidy : d.Tidy
  whole : ∀ p ∈ S, p.IsWhole
  count : d.pageCount = S.card

theorem Lists.congr {d : Directory} {P Q : Page → Prop} (lists : d.Lists P)
    (same : ∀ q, P q ↔ Q q) : d.Lists Q := fun a q => by rw [lists a q, same q]

theorem mem_tablesOf {S : Finset Page} {i : Nat} :
    i ∈ tablesOf S ↔ ∃ p ∈ S, ∃ g ∈ p.granules, tableIndex g = i := by
  simp [tablesOf]

namespace Tracks

variable {d : Directory} {S : Finset Page} {p : Page}

theorem mem_tables_iff (tracks : d.Tracks S) (i : Nat) : i ∈ d.tables ↔ i ∈ tablesOf S := by
  rw [Std.ExtTreeMap.mem_iff_isSome_getElem?, tracks.tidy.isSome_table_iff, mem_tablesOf]
  constructor
  · rintro ⟨a, rfl, held⟩
    obtain ⟨q, hq⟩ := Option.isSome_iff_exists.1 held
    obtain ⟨mem, g, hg, same⟩ := (tracks.lists a q).1 hq
    exact ⟨q, mem, g, hg, same.1⟩
  · rintro ⟨q, mem, g, hg, rfl⟩
    refine ⟨g, rfl, ?_⟩
    rw [(tracks.lists g q).2 ⟨mem, g, hg, rfl, rfl⟩]
    rfl

theorem tableCount_eq (tracks : d.Tracks S) : d.tableCount = (tablesOf S).card := by
  have keys : d.tables.keys.toFinset = tablesOf S := by
    ext i
    rw [List.mem_toFinset, Std.ExtTreeMap.mem_keys, tracks.mem_tables_iff]
  rw [tableCount, ← Std.ExtTreeMap.length_keys, ← keys,
    List.toFinset_card_of_nodup Std.ExtTreeMap.nodup_keys]

theorem represents (tracks : d.Tracks S) : d.Represents S where
  whole := tracks.whole
  lookup_iff a q := by rw [lookup_eq_some_iff tracks.lists tracks.whole, Page.contains_iff]
  page_count := tracks.count
  table_count := tracks.tableCount_eq

theorem slot_eq_some (tracks : d.Tracks S) (mem : p ∈ S) {g : Addr} (hg : g ∈ p.granules) :
    d.slot g = some p :=
  (tracks.lists g p).2 ⟨mem, g, hg, rfl, rfl⟩

/-- Every page has the slot of its base to itself, so there are no more pages than slots. -/
theorem card_le_capacity (tracks : d.Tracks S) : S.card ≤ capacity := by
  have slots : (Finset.range 256 ×ˢ Finset.range 65536).card = capacity := by
    rw [Finset.card_product, Finset.card_range, Finset.card_range, capacity]
  rw [← slots]
  refine Finset.card_le_card_of_injOn (fun p => (tableIndex p.base, slotIndex p.base)) ?_ ?_
  · intro p _
    simp only [Finset.coe_product, Finset.coe_range, Set.mem_prod, Set.mem_Iio]
    exact ⟨Nat.mod_lt _ (by decide), Nat.mod_lt _ (by decide)⟩
  · intro p mem q memq same
    obtain ⟨table, place⟩ := Prod.mk.inj same
    have base := Page.base_mem_granules (tracks.whole p mem)
    have held := (tracks.lists q.base p).2 ⟨mem, p.base, base, table, place⟩
    rw [tracks.slot_eq_some memq (Page.base_mem_granules (tracks.whole q memq))] at held
    exact (Option.some.inj held).symm

theorem obstacle?_eq_none_iff (tracks : d.Tracks S) :
    d.obstacle? p = none ↔ ∀ q, ¬ Blocks S p q := by
  rw [obstacle?, List.findSome?_eq_none_iff]
  constructor
  · rintro clear q ⟨mem, other, g, hg, h, hh, same⟩
    have held := (tracks.lists g q).2 ⟨mem, h, hh, same⟩
    simpa [held, other] using clear g hg
  · intro clear g hg
    rw [Option.filter_eq_none_iff]
    intro q held other
    obtain ⟨mem, h, hh, same⟩ := (tracks.lists g q).1 held
    exact clear q ⟨mem, by simpa using other, g, hg, h, hh, same⟩

theorem blocks_of_obstacle? (tracks : d.Tracks S) {q : Page} (found : d.obstacle? p = some q) :
    Blocks S p q := by
  obtain ⟨g, hg, held⟩ := List.exists_of_findSome?_eq_some found
  obtain ⟨held, other⟩ := Option.filter_eq_some_iff.1 held
  obtain ⟨mem, h, hh, same⟩ := (tracks.lists g q).1 held
  exact ⟨mem, by simpa using other, g, hg, h, hh, same⟩

theorem not_blocks_of_mem (tracks : d.Tracks S) (mem : p ∈ S) (q : Page) : ¬ Blocks S p q := by
  rintro ⟨memq, other, g, hg, h, hh, same⟩
  have held := (tracks.lists g q).2 ⟨memq, h, hh, same⟩
  rw [tracks.slot_eq_some mem hg, Option.some_inj] at held
  exact other held.symm

theorem install_of_mem (tracks : d.Tracks S) (mem : p ∈ S) (grant : Nat → Bool) :
    d.install grant p = (.ok (), d) := by
  have clear := tracks.obstacle?_eq_none_iff.2 (tracks.not_blocks_of_mem mem)
  have full : (p.granules.all fun g => (d.slot g).isSome) = true := by
    rw [List.all_eq_true]
    intro g hg
    rw [tracks.slot_eq_some mem hg]
    rfl
  simp [install, clear, full]

theorem install_of_not_mem (tracks : d.Tracks S) (fresh : p ∉ S) (clear : ∀ q, ¬ Blocks S p q)
    (whole : p.IsWhole) (grant : Nat → Bool) :
    d.install grant p =
      if (fill grant p p.granules d).1 then
        (.ok (), { (fill grant p p.granules d).2 with pageCount := d.pageCount + 1 })
      else (.error .directoryExhausted, d) := by
  have clear := tracks.obstacle?_eq_none_iff.2 clear
  have base := Page.base_mem_granules whole
  have unfilled : (p.granules.all fun g => (d.slot g).isSome) = false := by
    rw [List.all_eq_false]
    refine ⟨p.base, base, ?_⟩
    rw [slot_eq_none_of_obstacle?_eq_none tracks.lists fresh clear ⟨p.base, base, rfl, rfl⟩]
    simp
  have back := vacate_fill grant tracks.tidy tracks.lists fresh
  have count := pageCount_fill grant p p.granules d
  cases filling : fill grant p p.granules d with
  | mk filled d₁ =>
    rw [filling] at back count
    cases filled with
    | true =>
      simp only [install, clear, unfilled, filling]
      simp [← count]
    | false =>
      simp only [install, clear, unfilled, filling]
      simp [back]

theorem tracks_fill (tracks : d.Tracks S) (fresh : p ∉ S) (clear : ∀ q, ¬ Blocks S p q)
    (whole : p.IsWhole) {grant : Nat → Bool} (filled : (fill grant p p.granules d).1 = true) :
    { (fill grant p p.granules d).2 with pageCount := d.pageCount + 1 }.Tracks (insert p S) where
  lists := by
    have free := fun a => slot_eq_none_of_obstacle?_eq_none tracks.lists fresh
      (tracks.obstacle?_eq_none_iff.2 clear) (a := a)
    refine (lists_fill grant tracks.lists free filled).congr fun q => ?_
    rw [Finset.mem_insert, or_comm]
  tidy := by
    have tidy := tidy_fill grant p p.granules tracks.tidy
    exact ⟨tidy.inhabited, tidy.addressed⟩
  whole q mem := by
    obtain rfl | mem := Finset.mem_insert.1 mem
    · exact whole
    · exact tracks.whole q mem
  count := by rw [Finset.card_insert_of_notMem fresh, tracks.count]

theorem install_cases (tracks : d.Tracks S) (whole : p.IsWhole) (grant : Nat → Bool) :
    (p ∈ S ∧ d.install grant p = (.ok (), d)) ∨
    (∃ q, Blocks S p q ∧ d.install grant p = (.error (.directoryCollision p.base q.base), d)) ∨
    (p ∉ S ∧ (∀ q, ¬ Blocks S p q) ∧
      (∀ g ∈ p.granules, tableIndex g ∈ tablesOf S ∨ grant (tableIndex g) = true) ∧
      ∃ d', d.install grant p = (.ok (), d') ∧ d'.Tracks (insert p S)) ∨
    (p ∉ S ∧ (∀ q, ¬ Blocks S p q) ∧
      (∃ g ∈ p.granules, tableIndex g ∉ tablesOf S ∧ grant (tableIndex g) = false) ∧
      d.install grant p = (.error .directoryExhausted, d)) := by
  by_cases mem : p ∈ S
  · exact .inl ⟨mem, tracks.install_of_mem mem grant⟩
  cases clear : d.obstacle? p with
  | some q =>
    exact .inr (.inl ⟨q, tracks.blocks_of_obstacle? clear, by simp [install, clear]⟩)
  | none =>
    have clear := tracks.obstacle?_eq_none_iff.1 clear
    have done := tracks.install_of_not_mem mem clear whole grant
    have short := fill_eq_false_iff grant p p.granules d
    simp only [tracks.mem_tables_iff] at short
    cases filled : (fill grant p p.granules d).1 with
    | false =>
      rw [filled] at done
      exact .inr (.inr (.inr ⟨mem, clear, short.1 filled, done⟩))
    | true =>
      rw [filled] at done
      refine .inr (.inr (.inl ⟨mem, clear, fun g hg => ?_, _, done,
        tracks.tracks_fill mem clear whole filled⟩))
      by_contra neither
      push Not at neither
      rw [short.2 ⟨g, hg, neither.1, by simpa using neither.2⟩] at filled
      contradiction

theorem remove_of_not_mem (tracks : d.Tracks S) (absent : p ∉ S) : d.remove p = d := by
  have nowhere : ∀ g ∈ p.granules, d.slot g ≠ some p := fun g _ held =>
    absent ((tracks.lists g p).1 held).1
  rw [remove, vacate_of_absent nowhere]

theorem tracks_remove (tracks : d.Tracks S) (p : Page) : (d.remove p).Tracks (S.erase p) := by
  by_cases mem : p ∈ S
  · have found : (vacate p p.granules d).1 = true := by
      have base := Page.base_mem_granules (tracks.whole p mem)
      exact (vacate_eq_true_iff p p.granules d).2 ⟨p.base, base, tracks.slot_eq_some mem base⟩
    have removed : d.remove p =
        { (vacate p p.granules d).2 with pageCount := d.pageCount - 1 } := by
      have count := pageCount_vacate p p.granules d
      cases vacating : vacate p p.granules d with
      | mk cleared d₁ =>
        rw [vacating] at found count
        obtain rfl : cleared = true := found
        simp only [remove, vacating, ← count]
    constructor
    · refine (lists_remove tracks.lists p).congr fun q => ?_
      rw [Finset.mem_erase, and_comm]
    · have tidy := tidy_vacate p p.granules tracks.tidy
      rw [removed]
      exact ⟨tidy.inhabited, tidy.addressed⟩
    · exact fun q held => tracks.whole q (Finset.mem_of_mem_erase held)
    · rw [removed, Finset.card_erase_of_mem mem, tracks.count]
  · rw [tracks.remove_of_not_mem mem, Finset.erase_eq_of_notMem mem]
    exact tracks

theorem actsAs (tracks : d.Tracks S) (whole : p.IsWhole) : d.ActsAs S p where
  present grant mem := tracks.install_of_mem mem grant
  collided grant blocked := by
    obtain ⟨mem, -⟩ | blocks | ⟨-, clear, -⟩ | ⟨-, clear, -⟩ := tracks.install_cases whole grant
    · obtain ⟨q, blocks⟩ := blocked
      exact absurd blocks (tracks.not_blocks_of_mem mem q)
    · exact blocks
    · exact absurd blocked (not_exists.2 clear)
    · exact absurd blocked (not_exists.2 clear)
  added grant fresh clear supplied := by
    obtain ⟨mem, -⟩ | ⟨q, blocks, -⟩ | ⟨-, -, -, d', done, tracks'⟩ | ⟨-, -, short, -⟩ :=
      tracks.install_cases whole grant
    · exact absurd mem fresh
    · exact absurd blocks (clear q)
    · exact ⟨d', done, tracks'.represents⟩
    · obtain ⟨g, hg, unused, refused⟩ := short
      obtain used | granted := supplied g hg
      · exact absurd used unused
      · simp [granted] at refused
  exhausted grant fresh clear short := by
    obtain ⟨mem, -⟩ | ⟨q, blocks, -⟩ | ⟨-, -, supplied, -⟩ | ⟨-, -, -, failed⟩ :=
      tracks.install_cases whole grant
    · exact absurd mem fresh
    · exact absurd blocks (clear q)
    · obtain ⟨g, hg, unused, refused⟩ := short
      obtain used | granted := supplied g hg
      · exact absurd used unused
      · simp [granted] at refused
    · exact failed
  removed := (tracks.tracks_remove p).represents
  absent fresh := tracks.remove_of_not_mem fresh

end Tracks

theorem tracks_empty : Tracks {} ∅ where
  lists a q := by simpa using lists_empty a q
  tidy := tidy_empty
  whole p mem := by simp at mem
  count := rfl

theorem exists_tracks_of_reachable {d : Directory} (reached : d.Reachable) :
    ∃ S, d.Tracks S := by
  induction reached with
  | empty => exact ⟨∅, tracks_empty⟩
  | @install d p grant before whole ih =>
    obtain ⟨S, tracks⟩ := ih
    obtain ⟨-, done⟩ | ⟨q, -, failed⟩ | ⟨-, -, -, d', done, tracks'⟩ | ⟨-, -, -, failed⟩ :=
      tracks.install_cases whole grant
    · exact ⟨S, done ▸ tracks⟩
    · exact ⟨S, failed ▸ tracks⟩
    · exact ⟨insert p S, done ▸ tracks'⟩
    · exact ⟨S, failed ▸ tracks⟩
  | @remove d p before whole ih =>
    obtain ⟨S, tracks⟩ := ih
    exact ⟨S.erase p, tracks.tracks_remove p⟩

theorem Represents.unique {d : Directory} {S T : Finset Page} (left : d.Represents S)
    (right : d.Represents T) : S = T := by
  have within : ∀ {U V : Finset Page}, d.Represents U → d.Represents V → U ⊆ V :=
    fun {U V} inner outer p mem => by
      have sized : p.base < p.limit := Nat.lt_add_of_pos_right (inner.whole p mem).2.2.1
      exact ((outer.lookup_iff p.base p).1
        ((inner.lookup_iff p.base p).2 ⟨mem, Nat.le_refl _, sized⟩)).1
  exact (within left right).antisymm (within right left)

/-- A directory stands for a set of pages, and installing and removing a page acts on that set. -/
theorem represents_pages {d : Directory} (reached : d.Reachable) :
    ∃ S, (∀ T, d.Represents T ↔ T = S) ∧ ∀ p : Page, p.IsWhole → d.ActsAs S p := by
  obtain ⟨S, tracks⟩ := exists_tracks_of_reachable reached
  refine ⟨S, fun T => ⟨fun other => other.unique tracks.represents, ?_⟩, fun p =>
    tracks.actsAs⟩
  rintro rfl
  exact tracks.represents

def loneNarrow : Page := ⟨1, 0x30000, 0x10000, .huge .raw, 0x10000⟩

/-- A page of two granules, of which the second is folded onto the slot of `loneNarrow`. -/
def straddling : Page := ⟨2, 0x10100020000, 0x20000, .huge .raw, 0x20000⟩

theorem represents_pages_with_straddling :
    let d := (({} : Directory).install (fun _ => true) loneNarrow).2
    d.Reachable ∧ straddling.IsWhole ∧ ∃ S, d.Represents S ∧ loneNarrow ∈ S ∧
      ∃ q, Blocks S straddling q ∧ d.install (fun _ => true) straddling =
        (.error (.directoryCollision straddling.base q.base), d) := by
  intro d
  have reached : d.Reachable :=
    .install _ .empty ⟨by decide, by decide, by decide, by decide⟩
  have whole : straddling.IsWhole := ⟨by decide, by decide, by decide, by decide⟩
  obtain ⟨S, unique, acts⟩ := represents_pages reached
  have represents : d.Represents S := (unique S).2 rfl
  have found : d.lookup 0x30000 = some loneNarrow := by decide +kernel
  have mem := ((represents.lookup_iff 0x30000 loneNarrow).1 found).1
  have blocks : Blocks S straddling loneNarrow :=
    ⟨mem, by decide, 0x10100030000, by decide, 0x30000, by decide, by decide, by decide⟩
  exact ⟨reached, whole, S, represents, mem, (acts straddling whole).collided _ ⟨_, blocks⟩⟩

end Directory

end MarkSweep
