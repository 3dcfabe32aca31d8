import MarkSweep.Arena.Allocate

set_option autoImplicit false

namespace MarkSweep

theorem Directory.isExhaustion_of_install {grant : Nat → Bool} {p : Page} {d d' : Directory}
    {e : Error} (refused : d.install grant p = (.error e, d')) : e.isExhaustion = true := by
  unfold install at refused
  split at refused
  · obtain ⟨rfl, -⟩ : Error.directoryCollision _ _ = e ∧ _ := by simpa using refused
    rfl
  · split at refused
    · simp at refused
    · split at refused
      · simp at refused
      · obtain ⟨rfl, -⟩ : Error.directoryExhausted = e ∧ _ := by simpa using refused
        rfl

theorem Slab.takes_first_block {page : Page} (one : page.blockCount = 1) :
    ∃ k t, (Slab.fresh page).takeFree = (some k, t) := by
  cases search : (Slab.fresh page).allocated.clearFrom? 0 with
  | some k => exact ⟨k, _, by rw [takeFree, show (Slab.fresh page).cursor = 0 from rfl, search]⟩
  | none =>
    have room : 0 < (Slab.fresh page).allocated.size := by
      rw [fresh, Bitmap.size_empty, one]
      exact Nat.one_pos
    have inUse := Bitmap.clearFrom?_eq_none search (Nat.le_refl 0) room
    rw [fresh, Bitmap.get_empty] at inUse
    cases inUse

namespace Arena

theorem place_result {region : Nat → Option Addr} {table : Nat → Nat → Bool}
    {describe : Addr → Page} {retries : Nat} {d d' : Directory} {result : Except Error Page}
    (placed : place region table describe retries d = (result, d')) :
    (∃ base, result = .ok (describe base)) ∨ ∃ e, result = .error e ∧ e.isExhaustion = true := by
  fun_induction place region table describe retries d with
  | case1 =>
    obtain ⟨rfl, -⟩ := Prod.mk.inj placed
    exact .inr ⟨_, rfl, rfl⟩
  | case2 retries d attempt base =>
    obtain ⟨rfl, -⟩ := Prod.mk.inj placed
    exact .inl ⟨base, rfl⟩
  | case3 d base retries collided other d₁ attempt offered collides ih => exact ih placed
  | case4 retries d attempt base offered e d₁ installing =>
    obtain ⟨rfl, -⟩ := Prod.mk.inj placed
    exact .inr ⟨e, rfl, Directory.isExhaustion_of_install installing⟩

variable {a b : Arena} {host : Host} {size blockSize : Nat}

theorem addPage_result {kind : PageKind} {result : Except Error Nat}
    (added : a.addPage host size kind blockSize = (result, b)) :
    (∃ page : Page, page.kind = kind ∧ result = .ok a.slabs.size ∧
        b.slabs[a.slabs.size]? = some (Slab.fresh page)) ∨
      ∃ e, result = .error e ∧ e.isExhaustion = true := by
  unfold addPage at added
  split at added
  · obtain ⟨rfl, -⟩ := Prod.mk.inj added
    exact .inr ⟨_, rfl, rfl⟩
  · simp only at added
    split at added
    · next e d placed =>
      obtain ⟨base, same⟩ | ⟨e', same, exhausted⟩ := place_result placed
      · nomatch same
      · obtain rfl := Except.error.inj same
        obtain ⟨rfl, -⟩ := Prod.mk.inj added
        exact .inr ⟨e, rfl, exhausted⟩
    · next page d placed =>
      obtain ⟨rfl, rfl⟩ := Prod.mk.inj added
      obtain ⟨base, same⟩ | ⟨e', same, -⟩ := place_result placed
      · obtain rfl := Except.ok.inj same
        refine .inl ⟨{ id := a.mapped, base, size, kind, blockSize }, rfl, rfl, ?_⟩
        exact Array.getElem?_push_size
      · nomatch same

theorem isExhaustion_of_takeOrMap {c : SizeClass} {tries : Nat} {e : Error}
    (refused : a.takeOrMap host c tries = (.error e, b)) : e.isExhaustion = true := by
  fun_induction takeOrMap host c tries a with
  | case1 a =>
    obtain rfl := Except.error.inj (Prod.mk.inj refused).1
    rfl
  | case2 => nomatch (Prod.mk.inj refused).1
  | case3 tries a a₁ unlisted e' a₂ adding =>
    obtain rfl := Except.error.inj (Prod.mk.inj refused).1
    obtain ⟨-, -, same, -⟩ | ⟨e₁, same, exhausted⟩ := addPage_result adding
    · nomatch same
    · obtain rfl := Except.error.inj same
      exact exhausted
  | case4 tries a a₁ unlisted i a₂ adding ih => exact ih refused

theorem isExhaustion_of_allocateHuge {kind : BlockKind} {e : Error}
    (refused : a.allocateHuge host size kind = (.error e, b)) : e.isExhaustion = true := by
  unfold allocateHuge at refused
  simp only at refused
  split at refused
  · next e' a₁ adding =>
    obtain ⟨-, -, same, -⟩ | ⟨e₁, same, exhausted⟩ := addPage_result adding
    · nomatch same
    · obtain rfl := Except.error.inj same
      obtain rfl := Except.error.inj (Prod.mk.inj refused).1
      exact exhausted
  · next i a₁ adding =>
    obtain ⟨page, huge, same, found⟩ | ⟨e₁, same, -⟩ := addPage_result adding
    · obtain rfl := Except.ok.inj same
      have one : page.blockCount = 1 := by rw [Page.blockCount, huge]; rfl
      obtain ⟨k, t, taken⟩ := Slab.takes_first_block one
      simp [takeFrom, found, taken] at refused
    · nomatch same

/-- **Requests are refused for what they ask for, or for want of memory**, in every arena. -/
theorem invalid_or_isExhaustion_of_allocate {kind : BlockKind} {e : Error}
    (refused : a.allocate host size kind = (.error e, b)) :
    e = .invalidAllocation size ∨ e.isExhaustion = true := by
  unfold allocate at refused
  split at refused
  · exact .inl (Except.error.inj (Prod.mk.inj refused).1).symm
  · split at refused
    · exact .inr (isExhaustion_of_allocateHuge refused)
    · exact .inr (isExhaustion_of_takeOrMap refused)

end Arena

end MarkSweep
