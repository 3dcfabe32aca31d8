import MarkSweep.Proofs.ArenaAllocation
import MarkSweep.Proofs.DirectoryRefinement

set_option autoImplicit false

/-!
# Placing a page

A page is placed over the first range on offer that collides with no installed page. A range that
collides is turned away and leaves no trace in the directory. If all ranges are turned away, if the
host has none to offer or no memory for a table of the directory, then there is no page, and the
arena is as it was.
-/

namespace MarkSweep

namespace Arena

section Placing

variable {S : Finset Page} {region : Nat → Option Addr} {table : Nat → Nat → Bool}
  {describe : Addr → Page} {d d' : Directory} {retries : Nat} {result : Except Error Page}

def TurnsAway (S : Finset Page) (region : Nat → Option Addr) (describe : Addr → Page)
    (attempt : Nat) : Prop :=
  ∃ base, region attempt = some base ∧ ∃ q, Directory.Blocks S (describe base) q

inductive Settles (S : Finset Page) (region : Nat → Option Addr) (table : Nat → Nat → Bool)
    (describe : Addr → Page) (d : Directory) (attempt : Nat) : Except Error Page → Directory → Prop
  | unmapped (refused : region attempt = none) :
      Settles S region table describe d attempt (.error (.outOfMemory (describe 0).size)) d
  | installed {base : Addr} {d' : Directory} (offer : region attempt = some base)
      (clear : ∀ q, ¬ Directory.Blocks S (describe base) q)
      (done : d.install (table attempt) (describe base) = (.ok (), d'))
      (tracks : d'.Tracks (insert (describe base) S)) :
      Settles S region table describe d attempt (.ok (describe base)) d'
  | exhausted {base : Addr} (offer : region attempt = some base)
      (clear : ∀ q, ¬ Directory.Blocks S (describe base) q)
      (short : ∃ g ∈ (describe base).granules, Directory.tableIndex g ∉ Directory.tablesOf S ∧
        table attempt (Directory.tableIndex g) = false) :
      Settles S region table describe d attempt (.error .directoryExhausted) d
  | collided {base : Addr} {q : Page} (last : attempt = maxPlacementRetries)
      (offer : region attempt = some base) (blocks : Directory.Blocks S (describe base) q) :
      Settles S region table describe d attempt
        (.error (.directoryCollision (describe base).base q.base)) d

/-- An attempt to place a page is the last, or its range is turned away and the next attempt finds
the directory as it was. -/
theorem place_attempt (fresh : ∀ base, describe base ∉ S)
    (whole : ∀ attempt base, region attempt = some base → (describe base).IsWhole)
    (tracks : d.Tracks S) (placed : place region table describe retries d = (result, d')) :
    Settles S region table describe d (maxPlacementRetries - retries) result d' ∨
      TurnsAway S region describe (maxPlacementRetries - retries) ∧
        ∃ left, retries = left + 1 ∧ place region table describe left d = (result, d') := by
  rw [place.eq_def] at placed
  cases offer : region (maxPlacementRetries - retries) with
  | none =>
    simp only [offer] at placed
    obtain ⟨rfl, rfl⟩ := Prod.mk.inj placed
    exact .inl (.unmapped offer)
  | some base =>
    simp only [offer] at placed
    obtain ⟨mem, -⟩ | ⟨q, blocks, failed⟩ | ⟨-, clear, -, d₁, done, tracks'⟩ |
      ⟨-, clear, short, failed⟩ :=
      tracks.install_cases (whole _ base offer) (table (maxPlacementRetries - retries))
    · exact absurd mem (fresh base)
    · rw [failed] at placed
      cases retries with
      | zero =>
        obtain ⟨rfl, rfl⟩ := Prod.mk.inj placed
        exact .inl (.collided rfl offer blocks)
      | succ left => exact .inr ⟨⟨base, offer, q, blocks⟩, left, rfl, placed⟩
    · simp only [done] at placed
      obtain ⟨rfl, rfl⟩ := Prod.mk.inj placed
      exact .inl (.installed offer clear done tracks')
    · simp only [failed] at placed
      obtain ⟨rfl, rfl⟩ := Prod.mk.inj placed
      exact .inl (.exhausted offer clear short)

theorem place_cases (fresh : ∀ base, describe base ∉ S)
    (whole : ∀ attempt base, region attempt = some base → (describe base).IsWhole)
    (tracks : d.Tracks S) (few : retries ≤ maxPlacementRetries)
    (placed : place region table describe retries d = (result, d')) :
    ∃ n ≤ maxPlacementRetries,
      (∀ m, maxPlacementRetries - retries ≤ m → m < n → TurnsAway S region describe m) ∧
      Settles S region table describe d n result d' := by
  -- An induction on the retries that are left: an attempt has been turned away before the next.
  induction retries with
  | zero =>
    obtain settled | ⟨-, left, more, -⟩ := place_attempt fresh whole tracks placed
    · exact ⟨_, Nat.sub_le _ _, fun m low high => by omega, settled⟩
    · omega
  | succ retries ih =>
    obtain settled | ⟨turned, left, more, again⟩ := place_attempt fresh whole tracks placed
    · exact ⟨_, Nat.sub_le _ _, fun m low high => by omega, settled⟩
    · obtain rfl : retries = left := by omega
      obtain ⟨n, bound, before, settled⟩ := ih (Nat.le_of_succ_le few) again
      refine ⟨n, bound, fun m low high => ?_, settled⟩
      obtain rfl | later := Nat.eq_or_lt_of_le low
      · exact turned
      · exact before m (by omega) high

end Placing

def nextPage (a : Arena) (size : Nat) (kind : PageKind) (blockSize : Nat) (base : Addr) : Page where
  id := a.mapped
  base := base
  size := size
  kind := kind
  blockSize := blockSize

def mapPage (a : Arena) (page : Page) (d : Directory) : Arena :=
  { a with
    directory := d
    slabs := a.slabs.push (Slab.fresh page)
    byBase := a.byBase.insert page.base a.slabs.size
    privateBytes := a.privateBytes + page.size
    mapped := a.mapped + 1 }

end Arena

def Host.TurnedAway (host : Host) (a : Arena) (S : Finset Page) (size : Nat) (kind : PageKind)
    (blockSize : Nat) (attempt : Nat) : Prop :=
  ∀ m < attempt, Arena.TurnsAway S (host.region a size) (a.nextPage size kind blockSize) m

/-- Whether a page is what an arena maps over the first range on offer that collides with no page
of a set, and a directory has it installed besides those. -/
structure Host.Provides (host : Host) (a : Arena) (S : Finset Page) (page : Page) (d : Directory) :
    Prop where
  cut : page.IsCut
  described : page = a.nextPage page.size page.kind page.blockSize page.base
  first : ∃ n ≤ maxPlacementRetries, host.region a page.size n = some page.base ∧
    host.TurnedAway a S page.size page.kind page.blockSize n
  clear : ∀ q, ¬ Directory.Blocks S page q
  installed : ∃ grant, a.directory.install grant page = (.ok (), d)
  tracks : d.Tracks (insert page S)

inductive Host.Denies (host : Host) (a : Arena) (S : Finset Page) (size : Nat) (kind : PageKind)
    (blockSize : Nat) : Error → Prop
  | overLimit (limited : a.heapLimit ≠ 0) (exceeds : a.heapLimit < a.privateBytes + size) :
      Denies host a S size kind blockSize (.outOfMemory size)
  | unmapped {n : Nat} (bound : n ≤ maxPlacementRetries)
      (turned : host.TurnedAway a S size kind blockSize n) (refused : host.region a size n = none) :
      Denies host a S size kind blockSize (.outOfMemory size)
  | exhausted {n : Nat} {base : Addr} (bound : n ≤ maxPlacementRetries)
      (turned : host.TurnedAway a S size kind blockSize n)
      (offer : host.region a size n = some base)
      (clear : ∀ q, ¬ Directory.Blocks S (a.nextPage size kind blockSize base) q)
      (short : ∃ g ∈ (a.nextPage size kind blockSize base).granules,
        Directory.tableIndex g ∉ Directory.tablesOf S ∧
          host.table n (Directory.tableIndex g) = false) :
      Denies host a S size kind blockSize .directoryExhausted
  | collided {base : Addr} {q : Page}
      (turned : host.TurnedAway a S size kind blockSize (maxPlacementRetries + 1))
      (offer : host.region a size maxPlacementRetries = some base)
      (blocks : Directory.Blocks S (a.nextPage size kind blockSize base) q) :
      Denies host a S size kind blockSize (.directoryCollision base q.base)

namespace Host.Provides

variable {host : Host} {a : Arena} {S : Finset Page} {page : Page} {d : Directory}

theorem not_mem (provides : host.Provides a S page d) {T : Finset Page}
    (fresh : ∀ p ∈ T, p.id ≠ a.mapped) : page ∉ T :=
  fun mem => fresh page mem (congrArg Page.id provides.described)

theorem reachable (provides : host.Provides a S page d) (before : a.directory.Reachable) :
    d.Reachable := by
  obtain ⟨grant, done⟩ := provides.installed
  have after := before.install grant provides.cut.whole
  rwa [done] at after

end Host.Provides

namespace Arena

variable {a b : Arena} {host : Host} {S : Finset Page} {size blockSize : Nat} {kind : PageKind}

theorem addPage_cases (fresh : ∀ p ∈ S, p.id ≠ a.mapped) (tracks : a.directory.Tracks S)
    (aligned : host.IsAligned) (cuttable : Cuttable kind size blockSize) {result : Except Error Nat}
    (added : a.addPage host size kind blockSize = (result, b)) :
    (∃ page d, host.Provides a S page d ∧ page.size = size ∧ page.kind = kind ∧
        page.blockSize = blockSize ∧ result = .ok a.slabs.size ∧ b = a.mapPage page d) ∨
      ∃ e, host.Denies a S size kind blockSize e ∧ result = .error e ∧ b = a := by
  unfold addPage at added
  split at added
  · next exceeds =>
    obtain ⟨rfl, rfl⟩ := Prod.mk.inj added
    exact .inr ⟨_, .overLimit exceeds.1 exceeds.2, rfl, rfl⟩
  · have other : ∀ base, a.nextPage size kind blockSize base ∉ S := fun base mem =>
      fresh _ mem rfl
    have cut : ∀ attempt base, host.region a size attempt = some base →
        (a.nextPage size kind blockSize base).IsCut := by
      intro attempt base offer
      obtain ⟨whole, positive, below⟩ := aligned a size attempt base offer
      exact isCut_of_cuttable cuttable whole positive below _
    simp only at added
    cases placing : place (host.region a size) host.table (a.nextPage size kind blockSize)
        maxPlacementRetries a.directory with
    | mk outcome d =>
      have placing' := placing
      unfold nextPage at placing'
      rw [placing'] at added
      obtain ⟨n, bound, before, settled⟩ := place_cases other
        (fun attempt base offer => (cut attempt base offer).whole) tracks (Nat.le_refl _) placing
      have turned : host.TurnedAway a S size kind blockSize n := fun m low =>
        before m (by omega) low
      cases settled with
      | unmapped refused =>
        obtain ⟨rfl, rfl⟩ := Prod.mk.inj added
        exact .inr ⟨_, .unmapped bound turned refused, rfl, rfl⟩
      | @installed base d' offer clear done tracks' =>
        obtain ⟨rfl, rfl⟩ := Prod.mk.inj added
        exact .inl ⟨a.nextPage size kind blockSize base, _,
          ⟨cut n base offer, rfl, ⟨n, bound, offer, turned⟩, clear, ⟨_, done⟩, tracks'⟩, rfl, rfl,
          rfl, rfl, rfl⟩
      | exhausted offer clear short =>
        obtain ⟨rfl, rfl⟩ := Prod.mk.inj added
        exact .inr ⟨_, .exhausted bound turned offer clear short, rfl, rfl⟩
      | @collided base q last offer blocks =>
        subst last
        obtain ⟨rfl, rfl⟩ := Prod.mk.inj added
        refine .inr ⟨_, .collided (fun m low => ?_) offer blocks, rfl, rfl⟩
        obtain before | rfl := Nat.lt_succ_iff_lt_or_eq.1 low
        · exact turned m before
        · exact ⟨base, offer, q, blocks⟩

end Arena

end MarkSweep
