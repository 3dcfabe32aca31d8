import MarkSweep.Directory.History
import Mathlib.Tactic.Common

set_option autoImplicit false

namespace MarkSweep

/-- Whether an address falls into the slot of one of the page's granules. -/
def Page.Covers (p : Page) (a : Addr) : Prop := ∃ g ∈ p.granules, Directory.Aliases g a

namespace Directory

/-- Whether the slots hold the given pages and no others. -/
def Lists (d : Directory) (P : Page → Prop) : Prop :=
  ∀ a q, d.slot a = some q ↔ P q ∧ q.Covers a

theorem Aliases.symm {g h : Addr} (same : Aliases g h) : Aliases h g := ⟨same.1.symm, same.2.symm⟩

theorem Aliases.trans {f g h : Addr} (fg : Aliases f g) (gh : Aliases g h) : Aliases f h :=
  ⟨fg.1.trans gh.1, fg.2.trans gh.2⟩

theorem slot_congr (d : Directory) {g h : Addr} (same : Aliases g h) : d.slot g = d.slot h := by
  unfold slot
  rw [same.1, same.2]

theorem aliases_of_shiftRight_eq {g h : Addr} (same : g >>> 16 = h >>> 16) : Aliases g h := by
  have low : ∀ k, g >>> (16 + k) = h >>> (16 + k) := fun k => by
    rw [Nat.shiftRight_add, Nat.shiftRight_add, same]
  constructor
  · rw [tableIndex, tableIndex, low 16, low 24]
  · rw [slotIndex, slotIndex, same]

theorem slot_set_table (d : Directory) (i : Nat) (t : DirectoryTable) (a : Addr) :
    { d with tables := d.tables.insert i t }.slot a =
      if i = tableIndex a then t[slotIndex a]? else d.slot a := by
  unfold slot
  simp only [Std.ExtTreeMap.getElem?_insert, Nat.compare_eq_eq]
  by_cases h : i = tableIndex a
  · simp [h]
  · simp [h]

theorem slot_erase_table (d : Directory) (i : Nat) (a : Addr) :
    { d with tables := d.tables.erase i }.slot a =
      if i = tableIndex a then none else d.slot a := by
  unfold slot
  simp only [Std.ExtTreeMap.getElem?_erase, Nat.compare_eq_eq]
  by_cases h : i = tableIndex a
  · simp [h]
  · simp [h]

theorem slot_of_table {d : Directory} {a : Addr} {t : DirectoryTable}
    (found : d.tables[tableIndex a]? = some t) : d.slot a = t[slotIndex a]? := by
  rw [slot, found]

theorem slot_put {d : Directory} {g : Addr} {t : DirectoryTable} (p : Page)
    (same : ∀ a, tableIndex g = tableIndex a → t[slotIndex a]? = d.slot a)
    (free : d.slot g = none) (a : Addr) (q : Page) :
    { d with tables := d.tables.insert (tableIndex g) (t.insert (slotIndex g) p) }.slot a = some q ↔
      d.slot a = some q ∨ (q = p ∧ Aliases g a) := by
  rw [slot_set_table]
  by_cases ht : tableIndex g = tableIndex a
  · rw [if_pos ht, Std.ExtTreeMap.getElem?_insert, same a ht]
    by_cases hs : slotIndex g = slotIndex a
    · have here : d.slot a = none := by rw [← slot_congr d ⟨ht, hs⟩, free]
      simp [Aliases, ht, hs, here, eq_comm]
    · simp [Aliases, hs]
  · simp [Aliases, ht]

theorem slot_put_in_table {d : Directory} {g : Addr} {t : DirectoryTable} (p : Page)
    (found : d.tables[tableIndex g]? = some t) (free : ¬ t.contains (slotIndex g) = true)
    (a : Addr) (q : Page) :
    { d with tables := d.tables.insert (tableIndex g) (t.insert (slotIndex g) p) }.slot a = some q ↔
      d.slot a = some q ∨ (q = p ∧ Aliases g a) := by
  refine slot_put p (fun a' h => ?_) ?_ a q
  · rw [slot_of_table (h ▸ found)]
  · rw [slot_of_table found]
    exact Std.ExtTreeMap.getElem?_eq_none_of_contains_eq_false (eq_false_of_ne_true free)

theorem slot_put_in_new_table {d : Directory} {g : Addr} (p : Page)
    (missing : d.tables[tableIndex g]? = none) (a : Addr) (q : Page) :
    { d with
      tables := d.tables.insert (tableIndex g)
        ((∅ : DirectoryTable).insert (slotIndex g) p) }.slot a = some q ↔
      d.slot a = some q ∨ (q = p ∧ Aliases g a) := by
  refine slot_put p (fun a' h => ?_) ?_ a q
  · rw [slot, ← h, missing]
    simp
  · rw [slot, missing]

theorem slot_fill_of_slot {grant : Nat → Bool} {p : Page} {gs : List Addr} {d : Directory}
    {a : Addr} {q : Page} (held : d.slot a = some q) :
    (fill grant p gs d).2.slot a = some q := by
  fun_induction fill grant p gs d with
  | case1 => exact held
  | case2 g gs d t found taken ih => exact ih held
  | case3 g gs d t found free ih =>
    exact ih ((slot_put_in_table p found free a q).2 (.inl held))
  | case4 g gs d missing granted t ih =>
    exact ih ((slot_put_in_new_table p missing a q).2 (.inl held))
  | case5 => exact held

theorem slot_or_of_slot_fill {grant : Nat → Bool} {p : Page} {gs : List Addr} {d : Directory}
    {a : Addr} {q : Page} (held : (fill grant p gs d).2.slot a = some q) :
    d.slot a = some q ∨ (q = p ∧ ∃ g ∈ gs, Aliases g a) := by
  fun_induction fill grant p gs d with
  | case1 => exact .inl held
  | case2 g gs d t found taken ih =>
    obtain h | ⟨rfl, g', hg', same⟩ := ih held
    · exact .inl h
    · exact .inr ⟨rfl, g', List.mem_cons_of_mem g hg', same⟩
  | case3 g gs d t found free ih =>
    obtain h | ⟨rfl, g', hg', same⟩ := ih held
    · obtain h | ⟨rfl, same⟩ := (slot_put_in_table p found free a q).1 h
      · exact .inl h
      · exact .inr ⟨rfl, g, List.mem_cons_self, same⟩
    · exact .inr ⟨rfl, g', List.mem_cons_of_mem g hg', same⟩
  | case4 g gs d missing granted t ih =>
    obtain h | ⟨rfl, g', hg', same⟩ := ih held
    · obtain h | ⟨rfl, same⟩ := (slot_put_in_new_table p missing a q).1 h
      · exact .inl h
      · exact .inr ⟨rfl, g, List.mem_cons_self, same⟩
    · exact .inr ⟨rfl, g', List.mem_cons_of_mem g hg', same⟩
  | case5 => exact .inl held

theorem isSome_slot_fill {grant : Nat → Bool} {p : Page} {gs : List Addr} {d : Directory}
    (filled : (fill grant p gs d).1 = true) {g : Addr} (mem : g ∈ gs) :
    ((fill grant p gs d).2.slot g).isSome = true := by
  fun_induction fill grant p gs d with
  | case1 => simp at mem
  | case2 g' gs d t found taken ih =>
    obtain rfl | mem := List.mem_cons.1 mem
    · obtain ⟨q, hq⟩ : ∃ q, d.slot g = some q := by
        rw [slot_of_table found, ← Option.isSome_iff_exists,
          Std.ExtTreeMap.isSome_getElem?_eq_contains, taken]
      rw [slot_fill_of_slot hq]
      rfl
    · exact ih filled mem
  | case3 g' gs d t found free ih =>
    obtain rfl | mem := List.mem_cons.1 mem
    · have put := (slot_put_in_table p found free g p).2 (.inr ⟨rfl, rfl, rfl⟩)
      rw [slot_fill_of_slot put]
      rfl
    · exact ih filled mem
  | case4 g' gs d missing granted t ih =>
    obtain rfl | mem := List.mem_cons.1 mem
    · have put := (slot_put_in_new_table p missing g p).2 (.inr ⟨rfl, rfl, rfl⟩)
      rw [slot_fill_of_slot put]
      rfl
    · exact ih filled mem
  | case5 => simp at filled

theorem slot_take {d : Directory} {g : Addr} {t : DirectoryTable} {p : Page}
    (found : d.tables[tableIndex g]? = some t) (holds : t[slotIndex g]? = some p)
    (a : Addr) (q : Page) :
    { d with
      tables := if (t.erase (slotIndex g)).isEmpty then d.tables.erase (tableIndex g)
        else d.tables.insert (tableIndex g) (t.erase (slotIndex g)) }.slot a = some q ↔
      d.slot a = some q ∧ ¬ (q = p ∧ Aliases g a) := by
  have here : ∀ a', tableIndex g = tableIndex a' → d.slot a' = t[slotIndex a']? := fun a' h =>
    slot_of_table (h ▸ found)
  have rest : ∀ a', (t.erase (slotIndex g))[slotIndex a']? =
      if slotIndex g = slotIndex a' then none else t[slotIndex a']? := fun a' => by
    rw [Std.ExtTreeMap.getElem?_erase]
    simp
  have table : { d with
      tables := if (t.erase (slotIndex g)).isEmpty then d.tables.erase (tableIndex g)
        else d.tables.insert (tableIndex g) (t.erase (slotIndex g)) }.slot a =
      if tableIndex g = tableIndex a then (t.erase (slotIndex g))[slotIndex a]? else d.slot a := by
    by_cases he : (t.erase (slotIndex g)).isEmpty = true
    · rw [if_pos he, slot_erase_table, Std.ExtTreeMap.isEmpty_iff.1 he]
      simp
    · rw [if_neg he, slot_set_table]
  rw [table]
  by_cases ht : tableIndex g = tableIndex a
  · rw [if_pos ht, rest, here a ht]
    by_cases hs : slotIndex g = slotIndex a
    · rw [hs] at holds
      simp [Aliases, ht, hs, holds, eq_comm]
    · simp [Aliases, hs]
  · simp [Aliases, ht]

theorem slot_vacate (p : Page) (gs : List Addr) (d : Directory) (a : Addr) (q : Page) :
    (vacate p gs d).2.slot a = some q ↔
      d.slot a = some q ∧ ¬ (q = p ∧ ∃ g ∈ gs, Aliases g a) := by
  fun_induction vacate p gs d with
  | case1 => simp
  | case2 g gs d t found holds rest tables ih =>
    rw [ih, slot_take found holds]
    simp only [List.mem_cons, exists_eq_or_imp]
    grind
  | case3 g gs d t found other ih =>
    have here : ∀ {a}, Aliases g a → d.slot a ≠ some p := fun same => by
      rw [← slot_congr d same, slot_of_table found]
      exact other
    rw [ih]
    simp only [List.mem_cons, exists_eq_or_imp]
    grind
  | case4 g gs d missing ih =>
    have here : ∀ {a}, Aliases g a → d.slot a ≠ some p := fun same => by
      rw [← slot_congr d same, slot, missing]
      simp
    rw [ih]
    simp only [List.mem_cons, exists_eq_or_imp]
    grind

theorem lists_empty : Lists {} fun _ => False := by
  intro a q
  simp [slot]

theorem slot_eq_none_of_obstacle?_eq_none {d : Directory} {P : Page → Prop} {p : Page}
    (lists : d.Lists P) (fresh : ¬ P p) (clear : d.obstacle? p = none) {a : Addr}
    (covers : p.Covers a) : d.slot a = none := by
  obtain ⟨g, hg, same⟩ := covers
  rw [← slot_congr d same]
  have none_other := List.findSome?_eq_none_iff.1 clear g hg
  cases held : d.slot g with
  | none => rfl
  | some q =>
    rw [held, Option.filter_eq_none_iff] at none_other
    have : q = p := by simpa using none_other q rfl
    exact absurd (this ▸ ((lists g q).1 held).1) fresh

theorem lists_fill (grant : Nat → Bool) {d : Directory} {P : Page → Prop} {p : Page}
    (lists : d.Lists P) (free : ∀ a, p.Covers a → d.slot a = none)
    (filled : (fill grant p p.granules d).1 = true) :
    (fill grant p p.granules d).2.Lists fun q => P q ∨ q = p := by
  intro a q
  constructor
  · intro held
    obtain old | ⟨rfl, covers⟩ := slot_or_of_slot_fill held
    · exact ⟨.inl ((lists a q).1 old).1, ((lists a q).1 old).2⟩
    · exact ⟨.inr rfl, covers⟩
  · rintro ⟨old | rfl, covers⟩
    · exact slot_fill_of_slot ((lists a q).2 ⟨old, covers⟩)
    · obtain ⟨g, hg, same⟩ := id covers
      obtain ⟨r, hr⟩ := Option.isSome_iff_exists.1 (isSome_slot_fill filled hg)
      rw [slot_congr _ same] at hr
      obtain old | ⟨rfl, -⟩ := slot_or_of_slot_fill hr
      · rw [free a covers] at old
        simp at old
      · exact hr

theorem lists_vacate_fill (grant : Nat → Bool) {d : Directory} {P : Page → Prop} {p : Page}
    (lists : d.Lists P) (fresh : ¬ P p) :
    (vacate p p.granules (fill grant p p.granules d).2).2.Lists P := by
  intro a q
  rw [slot_vacate, ← lists a q]
  constructor
  · rintro ⟨held, other⟩
    obtain old | new := slot_or_of_slot_fill held
    · exact old
    · exact absurd new other
  · intro old
    refine ⟨slot_fill_of_slot old, ?_⟩
    rintro ⟨rfl, -⟩
    exact fresh ((lists a q).1 old).1

theorem lists_of_install_eq_ok {grant : Nat → Bool} {d d' : Directory} {P : Page → Prop} {p : Page}
    (lists : d.Lists P) (fresh : ¬ P p) (base : p.base ∈ p.granules)
    (done : d.install grant p = (.ok (), d')) : d'.Lists fun q => P q ∨ q = p := by
  cases clear : d.obstacle? p with
  | some other => simp [install, clear] at done
  | none =>
    have free := fun a (covers : p.Covers a) =>
      slot_eq_none_of_obstacle?_eq_none lists fresh clear covers
    have unfilled : (p.granules.all fun g => (d.slot g).isSome) = false := by
      rw [List.all_eq_false]
      exact ⟨p.base, base, by rw [free p.base ⟨p.base, base, rfl, rfl⟩]; simp⟩
    cases filling : fill grant p p.granules d with
    | mk filled d₁ =>
      have lists₁ := lists_fill grant lists free
      rw [filling] at lists₁
      simp only [install, clear, unfilled, filling] at done
      cases filled with
      | false => simp at done
      | true =>
        obtain rfl : { d₁ with pageCount := d₁.pageCount + 1 } = d' := by simpa using done
        exact lists₁ rfl

theorem lists_of_install_eq_error {grant : Nat → Bool} {d d' : Directory} {P : Page → Prop}
    {p : Page} {e : Error} (lists : d.Lists P) (fresh : ¬ P p)
    (failed : d.install grant p = (.error e, d')) : d'.Lists P := by
  cases clear : d.obstacle? p with
  | some other =>
    simp only [install, clear] at failed
    obtain rfl : d = d' := (Prod.mk.inj failed).2
    exact lists
  | none =>
    simp only [install, clear] at failed
    split at failed
    · simp at failed
    · cases filling : fill grant p p.granules d with
      | mk filled d₁ =>
        have vacated := lists_vacate_fill grant lists fresh
        simp only [filling] at failed vacated
        cases filled with
        | false =>
          obtain rfl : (vacate p p.granules d₁).2 = d' := (Prod.mk.inj failed).2
          exact vacated
        | true => simp at failed

theorem lists_remove {d : Directory} {P : Page → Prop} (lists : d.Lists P) (p : Page) :
    (d.remove p).Lists fun q => P q ∧ q ≠ p := by
  have same : ∀ a, (d.remove p).slot a = (vacate p p.granules d).2.slot a := by
    intro a
    cases vacating : vacate p p.granules d with
    | mk found d₁ => cases found <;> simp only [remove, vacating, slot]
  intro a q
  rw [same, slot_vacate, lists a q]
  constructor
  · rintro ⟨⟨held, covers⟩, other⟩
    exact ⟨⟨held, fun h => other ⟨h, h ▸ covers⟩⟩, covers⟩
  · rintro ⟨⟨held, other⟩, covers⟩
    exact ⟨⟨held, covers⟩, fun h => other h.1⟩

end Directory

namespace Page

theorem base_mem_granules {p : Page} (whole : p.IsWhole) : p.base ∈ p.granules :=
  mem_granules.2 ⟨0, by simpa using whole.2.2.1, by simp⟩

theorem covers_of_contains {p : Page} {a : Addr} (whole : p.IsWhole)
    (inside : p.contains a = true) : p.Covers a := by
  obtain ⟨low, high⟩ := contains_iff.1 inside
  obtain ⟨⟨b, hb⟩, ⟨n, hn⟩, -, -⟩ := whole
  rw [limit] at high
  simp only [granule] at hb hn
  refine ⟨p.base + (a - p.base) / granule * granule, mem_granules.2 ⟨_, ?_, rfl⟩, ?_⟩
  · rw [granule]
    lia
  · apply Directory.aliases_of_shiftRight_eq
    rw [Nat.shiftRight_eq_div_pow, Nat.shiftRight_eq_div_pow, granule]
    lia

end Page

namespace Directory

theorem lookup_eq_some_iff {d : Directory} {P : Page → Prop} (lists : d.Lists P)
    (whole : ∀ p, P p → p.IsWhole) {a : Addr} {p : Page} :
    d.lookup a = some p ↔ P p ∧ p.contains a = true := by
  rw [lookup, Option.filter_eq_some_iff, lists a p]
  constructor
  · rintro ⟨⟨held, -⟩, inside⟩
    exact ⟨held, inside⟩
  · rintro ⟨held, inside⟩
    exact ⟨⟨held, Page.covers_of_contains (whole p held) inside⟩, inside⟩

end Directory

end MarkSweep
