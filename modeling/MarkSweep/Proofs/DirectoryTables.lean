import MarkSweep.Proofs.DirectorySlots
import Mathlib.Data.Finset.Card
import Mathlib.Data.Finset.Union

set_option autoImplicit false

namespace MarkSweep

namespace Directory

/-- Whether no table is empty and every slot in use is the slot of an address. -/
structure Tidy (d : Directory) : Prop where
  inhabited : ∀ {i : Nat} {t : DirectoryTable}, d.tables[i]? = some t → t ≠ ∅
  addressed : ∀ {i j : Nat} {t : DirectoryTable}, d.tables[i]? = some t → j ∈ t →
    ∃ a, tableIndex a = i ∧ slotIndex a = j

theorem exists_mem_of_ne_empty {t : DirectoryTable} (inhabited : t ≠ ∅) : ∃ j, j ∈ t := by
  by_contra none
  refine inhabited (Std.ExtTreeMap.ext_getElem? fun j => ?_)
  rw [Std.ExtTreeMap.getElem?_empty]
  exact Std.ExtTreeMap.getElem?_eq_none fun mem => none ⟨j, mem⟩

theorem Tidy.exists_slot {d : Directory} (tidy : d.Tidy) {i : Nat} {t : DirectoryTable}
    (found : d.tables[i]? = some t) : ∃ a, tableIndex a = i ∧ (d.slot a).isSome := by
  obtain ⟨j, mem⟩ := exists_mem_of_ne_empty (tidy.inhabited found)
  obtain ⟨a, rfl, rfl⟩ := tidy.addressed found mem
  refine ⟨a, rfl, ?_⟩
  rw [slot_of_table found, ← Std.ExtTreeMap.contains_eq_isSome_getElem?]
  exact mem

theorem Tidy.isSome_table_iff {d : Directory} (tidy : d.Tidy) (i : Nat) :
    d.tables[i]?.isSome ↔ ∃ a, tableIndex a = i ∧ (d.slot a).isSome := by
  constructor
  · intro used
    obtain ⟨t, found⟩ := Option.isSome_iff_exists.1 used
    exact tidy.exists_slot found
  · rintro ⟨a, rfl, held⟩
    cases found : d.tables[tableIndex a]? with
    | some t => rfl
    | none => simp [slot, found] at held

theorem Tidy.tables_eq {d d' : Directory} (tidy : d.Tidy) (tidy' : d'.Tidy)
    (same : ∀ a, d.slot a = d'.slot a) : d.tables = d'.tables := by
  refine Std.ExtTreeMap.ext_getElem? fun i => ?_
  have used := tidy.isSome_table_iff i
  simp only [same, ← tidy'.isSome_table_iff i] at used
  cases found : d.tables[i]? with
  | none =>
    rw [found] at used
    exact (Option.not_isSome_iff_eq_none.1 fun h => by simpa using used.2 h).symm
  | some t =>
    rw [found] at used
    obtain ⟨t', found'⟩ := Option.isSome_iff_exists.1 (used.1 rfl)
    rw [found', Option.some_inj]
    refine Std.ExtTreeMap.ext_getElem? fun j => ?_
    -- A slot without an address is free in both tables.
    by_cases reached : ∃ a, tableIndex a = i ∧ slotIndex a = j
    · obtain ⟨a, rfl, rfl⟩ := reached
      rw [← slot_of_table found, ← slot_of_table found', same]
    · rw [Std.ExtTreeMap.getElem?_eq_none fun mem => reached (tidy.addressed found mem),
        Std.ExtTreeMap.getElem?_eq_none fun mem => reached (tidy'.addressed found' mem)]

theorem Tidy.ext {d d' : Directory} (tidy : d.Tidy) (tidy' : d'.Tidy)
    (same : ∀ a, d.slot a = d'.slot a) (count : d.pageCount = d'.pageCount) : d = d' := by
  have tables := tidy.tables_eq tidy' same
  cases d
  cases d'
  simp_all

theorem tidy_empty : Tidy {} :=
  ⟨fun found => by simp at found, fun found => by simp at found⟩

theorem tidy_insert {d : Directory} (tidy : d.Tidy) {g : Addr} {t : DirectoryTable}
    (inhabited : t ≠ ∅)
    (addressed : ∀ j ∈ t, ∃ a, tableIndex a = tableIndex g ∧ slotIndex a = j) :
    Tidy { d with tables := d.tables.insert (tableIndex g) t } := by
  have cases_of : ∀ {i u}, (d.tables.insert (tableIndex g) t)[i]? = some u →
      (i = tableIndex g ∧ u = t) ∨ d.tables[i]? = some u := fun {i u} found => by
    rw [Std.ExtTreeMap.getElem?_insert] at found
    by_cases here : compare (tableIndex g) i = .eq
    · rw [if_pos here, Option.some_inj] at found
      exact .inl ⟨(Std.LawfulEqCmp.eq_of_compare here).symm, found.symm⟩
    · rw [if_neg here] at found
      exact .inr found
  constructor
  · intro i u found
    obtain ⟨-, rfl⟩ | old := cases_of found
    · exact inhabited
    · exact tidy.inhabited old
  · intro i j u found mem
    obtain ⟨rfl, rfl⟩ | old := cases_of found
    · exact addressed j mem
    · exact tidy.addressed old mem

theorem tidy_put {d : Directory} (tidy : d.Tidy) (g : Addr) (p : Page) {t : DirectoryTable}
    (old : ∀ j ∈ t, ∃ a, tableIndex a = tableIndex g ∧ slotIndex a = j) :
    Tidy { d with tables := d.tables.insert (tableIndex g) (t.insert (slotIndex g) p) } := by
  refine tidy_insert tidy (fun empty => ?_) fun j mem => ?_
  · have held : slotIndex g ∈ t.insert (slotIndex g) p := Std.ExtTreeMap.mem_insert_self
    rw [empty] at held
    exact Std.ExtTreeMap.not_mem_empty held
  · obtain here | there := Std.ExtTreeMap.mem_insert.1 mem
    · exact ⟨g, rfl, Std.LawfulEqCmp.eq_of_compare here⟩
    · exact old j there

theorem tidy_take {d : Directory} (tidy : d.Tidy) {g : Addr} {t : DirectoryTable}
    (found : d.tables[tableIndex g]? = some t) :
    Tidy { d with
      tables := if (t.erase (slotIndex g)).isEmpty then d.tables.erase (tableIndex g)
        else d.tables.insert (tableIndex g) (t.erase (slotIndex g)) } := by
  by_cases empty : (t.erase (slotIndex g)).isEmpty = true
  · rw [if_pos empty]
    have old : ∀ {i u}, (d.tables.erase (tableIndex g))[i]? = some u → d.tables[i]? = some u :=
      fun {i u} kept => by
        rw [Std.ExtTreeMap.getElem?_erase] at kept
        split at kept
        · simp at kept
        · exact kept
    exact ⟨fun kept => tidy.inhabited (old kept), fun kept => tidy.addressed (old kept)⟩
  · rw [if_neg empty]
    exact tidy_insert tidy (fun none => empty (Std.ExtTreeMap.isEmpty_iff.2 none)) fun j mem =>
      tidy.addressed found (Std.ExtTreeMap.mem_of_mem_erase mem)

theorem tidy_fill (grant : Nat → Bool) (p : Page) (gs : List Addr) {d : Directory}
    (tidy : d.Tidy) : (fill grant p gs d).2.Tidy := by
  fun_induction fill grant p gs d with
  | case1 => exact tidy
  | case2 g gs d t found taken ih => exact ih tidy
  | case3 g gs d t found free ih =>
    exact ih (tidy_put tidy g p fun j => tidy.addressed found)
  | case4 g gs d missing granted t ih =>
    exact ih (tidy_put tidy g p fun j mem => absurd mem Std.ExtTreeMap.not_mem_empty)
  | case5 => exact tidy

theorem tidy_vacate (p : Page) (gs : List Addr) {d : Directory} (tidy : d.Tidy) :
    (vacate p gs d).2.Tidy := by
  fun_induction vacate p gs d with
  | case1 => exact tidy
  | case2 g gs d t found holds rest tables ih => exact ih (tidy_take tidy found)
  | case3 g gs d t found other ih => exact ih tidy
  | case4 g gs d missing ih => exact ih tidy

@[simp] theorem pageCount_fill (grant : Nat → Bool) (p : Page) (gs : List Addr) (d : Directory) :
    (fill grant p gs d).2.pageCount = d.pageCount := by
  fun_induction fill grant p gs d with
  | case1 => rfl
  | case2 g gs d t found taken ih => exact ih
  | case3 g gs d t found free ih => exact ih
  | case4 g gs d missing granted t ih => exact ih
  | case5 => rfl

@[simp] theorem pageCount_vacate (p : Page) (gs : List Addr) (d : Directory) :
    (vacate p gs d).2.pageCount = d.pageCount := by
  fun_induction vacate p gs d with
  | case1 => rfl
  | case2 g gs d t found holds rest tables ih => exact ih
  | case3 g gs d t found other ih => exact ih
  | case4 g gs d missing ih => exact ih

theorem mem_tables_of_table {d : Directory} {i : Nat} {t : DirectoryTable}
    (found : d.tables[i]? = some t) : i ∈ d.tables := by
  rw [Std.ExtTreeMap.mem_iff_isSome_getElem?, found]
  rfl

/-- Filling ends at a granule whose table is neither in use nor granted. -/
theorem fill_eq_false_iff (grant : Nat → Bool) (p : Page) (gs : List Addr) (d : Directory) :
    (fill grant p gs d).1 = false ↔
      ∃ g ∈ gs, tableIndex g ∉ d.tables ∧ grant (tableIndex g) = false := by
  fun_induction fill grant p gs d with
  | case1 => simp
  | case2 g gs d t found taken ih => simp [ih, mem_tables_of_table found]
  | case3 g gs d t found free ih =>
    have used := mem_tables_of_table found
    simp only [ih, Std.ExtTreeMap.mem_insert, Std.compare_eq_iff_eq, List.mem_cons,
      exists_eq_or_imp]
    grind
  | case4 g gs d missing granted t ih =>
    simp only [ih, Std.ExtTreeMap.mem_insert, Std.compare_eq_iff_eq, List.mem_cons,
      exists_eq_or_imp]
    grind
  | case5 g gs d missing refused =>
    have unused : tableIndex g ∉ d.tables := by simpa using missing
    simp [unused, refused]

theorem vacate_eq_true_iff (p : Page) (gs : List Addr) (d : Directory) :
    (vacate p gs d).1 = true ↔ ∃ g ∈ gs, d.slot g = some p := by
  fun_induction vacate p gs d with
  | case1 => simp
  | case2 g gs d t found holds rest tables ih => simp [slot_of_table found, holds]
  | case3 g gs d t found other ih => simp [ih, slot_of_table found, other]
  | case4 g gs d missing ih => simp [ih, slot, missing]

theorem vacate_of_absent {p : Page} {gs : List Addr} {d : Directory}
    (absent : ∀ g ∈ gs, d.slot g ≠ some p) : vacate p gs d = (false, d) := by
  fun_induction vacate p gs d with
  | case1 => rfl
  | case2 g gs d t found holds rest tables ih =>
    exact absurd ((slot_of_table found).trans holds) (absent g List.mem_cons_self)
  | case3 g gs d t found other ih => exact ih fun h mem => absent h (List.mem_cons_of_mem g mem)
  | case4 g gs d missing ih => exact ih fun h mem => absent h (List.mem_cons_of_mem g mem)

/-- Filling for a page that no slot held, and vacating again, gives back the same directory. -/
theorem vacate_fill (grant : Nat → Bool) {d : Directory} {P : Page → Prop} {p : Page}
    (tidy : d.Tidy) (lists : d.Lists P) (fresh : ¬ P p) :
    (vacate p p.granules (fill grant p p.granules d).2).2 = d := by
  refine Tidy.ext (tidy_vacate _ _ (tidy_fill grant p p.granules tidy)) tidy (fun a => ?_) ?_
  · refine Option.ext fun q => ?_
    rw [lists_vacate_fill grant lists fresh, lists]
  · rw [pageCount_vacate, pageCount_fill]

end Directory

end MarkSweep
