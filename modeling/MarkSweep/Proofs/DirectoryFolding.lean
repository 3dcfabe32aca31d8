import MarkSweep.Proofs.DirectoryRefinement

set_option autoImplicit false

namespace MarkSweep

def Page.Overlaps (p q : Page) : Prop := ∃ a, p.contains a = true ∧ q.contains a = true

namespace Directory

/-- The window of an address, among the windows of `2 ^ 40` bytes that fill the address space. -/
def window (a : Addr) : Nat := a >>> 40

end Directory

def Page.LiesIn (p : Page) (w : Nat) : Prop := ∀ a, p.contains a = true → Directory.window a = w

namespace Directory

theorem mod_eq_of_xor_mod_eq {x y z : Nat} (same : (x ^^^ z) % 256 = (y ^^^ z) % 256) :
    x % 256 = y % 256 := by
  have byte : 256 = 2 ^ 8 := rfl
  rw [byte] at same ⊢
  apply Nat.eq_of_testBit_eq
  intro i
  have here := congrArg (Nat.testBit · i) same
  simp only [Nat.testBit_mod_two_pow, Nat.testBit_xor] at here ⊢
  by_cases low : i < 8
  · simp only [low, decide_true, Bool.true_and] at here ⊢
    exact Bool.xor_left_inj.1 here
  · simp [low]

theorem shiftRight_eq_parts (a : Nat) :
    a >>> 16 = (a >>> 40 * 256 + a >>> 32 % 256) * 65536 + a >>> 16 % 65536 := by
  have high : a >>> 32 / 256 = a >>> 40 := (Nat.shiftRight_eq_div_pow _ 8).symm.trans
    (Nat.shiftRight_add a 32 8).symm
  have low : a >>> 16 / 65536 = a >>> 32 := (Nat.shiftRight_eq_div_pow _ 16).symm.trans
    (Nat.shiftRight_add a 16 16).symm
  omega

theorem shiftRight_eq_of_aliases {a b : Addr} (near : window a = window b) (same : Aliases a b) :
    a >>> 16 = b >>> 16 := by
  obtain ⟨table, place⟩ := same
  unfold window at near
  unfold tableIndex at table
  rw [near] at table
  have byte := mod_eq_of_xor_mod_eq table
  unfold slotIndex at place
  rw [shiftRight_eq_parts a, shiftRight_eq_parts b, near, byte, place]

/-- Two granules of one window do not share a slot. -/
theorem granule_eq_of_aliases {g h : Addr} (wholeG : granule ∣ g) (wholeH : granule ∣ h)
    (near : window g = window h) (same : Aliases g h) : g = h := by
  have number := shiftRight_eq_of_aliases near same
  rw [Nat.shiftRight_eq_div_pow, Nat.shiftRight_eq_div_pow] at number
  have size : granule = 2 ^ 16 := rfl
  rw [← Nat.div_mul_cancel wholeG, ← Nat.div_mul_cancel wholeH, size, number]

end Directory

namespace Page

variable {p q : Page}

theorem dvd_of_mem_granules (whole : p.IsWhole) {g : Addr} (mem : g ∈ p.granules) : granule ∣ g := by
  obtain ⟨k, -, rfl⟩ := mem_granules.1 mem
  exact Nat.dvd_add whole.1 (Nat.dvd_mul_left _ _)

theorem contains_of_mem_granules {g : Addr} (mem : g ∈ p.granules) : p.contains g = true := by
  obtain ⟨k, bound, rfl⟩ := mem_granules.1 mem
  exact contains_iff.2 ⟨Nat.le_add_right _ _, Nat.add_lt_add_left bound _⟩

theorem overlaps_of_mem_granules {g : Addr} (first : g ∈ p.granules) (second : g ∈ q.granules) :
    p.Overlaps q :=
  ⟨g, contains_of_mem_granules first, contains_of_mem_granules second⟩

end Page

namespace Directory

/-- What becomes of a page at a directory for some pages. -/
structure TellsApart (d : Directory) (S : Finset Page) (p : Page) : Prop where
  near : ∀ w, p.LiesIn w → (∀ q ∈ S, q.LiesIn w) → (∀ q ∈ S, ¬ p.Overlaps q) →
    (∀ q, ¬ Blocks S p q) ∧
      ∀ grant base other, (d.install grant p).1 ≠ .error (.directoryCollision base other)
  overlapping : ∀ q ∈ S, q ≠ p → p.Overlaps q → ∀ grant,
    ∃ r ∈ S, d.install grant p = (.error (.directoryCollision p.base r.base), d)
  /-- A page that shares slots with no other page is installed, however many windows it spans and
  whatever slots its own granules share. Taking it out again leaves nothing of it. -/
  wide : p ∉ S → (∀ q, ¬ Blocks S p q) → ∀ grant,
    (∀ g ∈ p.granules, tableIndex g ∈ tablesOf S ∨ grant (tableIndex g) = true) →
    ∃ d', d.install grant p = (.ok (), d') ∧ d'.Represents (insert p S) ∧
      (∀ a, p.contains a = true → d'.lookup a = some p) ∧ d'.remove p = d
  gone : ∀ a, (d.remove p).slot a ≠ some p

section Pages

variable {d : Directory} {S : Finset Page} {p q : Page}

/-- In one window a page is in the way of another only where they overlap. -/
theorem overlaps_of_blocks {w : Nat} (wholeP : p.IsWhole) (wholeQ : q.IsWhole) (here : p.LiesIn w)
    (there : q.LiesIn w) (blocks : Blocks S p q) : p.Overlaps q := by
  obtain ⟨-, -, g, memG, h, memH, same⟩ := blocks
  have windowG := here g (Page.contains_of_mem_granules memG)
  have windowH := there h (Page.contains_of_mem_granules memH)
  have equal : h = g := granule_eq_of_aliases (Page.dvd_of_mem_granules wholeQ memH)
    (Page.dvd_of_mem_granules wholeP memG) (windowH.trans windowG.symm) same
  rw [equal] at memH
  exact Page.overlaps_of_mem_granules memG memH

theorem blocks_of_overlaps (wholeP : p.IsWhole) (wholeQ : q.IsWhole) (mem : q ∈ S) (other : q ≠ p)
    (overlaps : p.Overlaps q) : Blocks S p q := by
  obtain ⟨a, onP, onQ⟩ := overlaps
  obtain ⟨g, memG, sameG⟩ := Page.covers_of_contains wholeP onP
  obtain ⟨h, memH, sameH⟩ := Page.covers_of_contains wholeQ onQ
  exact ⟨mem, other, g, memG, h, memH, sameH.trans sameG.symm⟩

theorem Tracks.remove_eq {d' : Directory} (tracks : d.Tracks S) (fresh : p ∉ S)
    (tracks' : d'.Tracks (insert p S)) : d'.remove p = d := by
  have back := tracks'.tracks_remove p
  rw [Finset.erase_insert fresh] at back
  refine Tidy.ext back.tidy tracks.tidy (fun a => ?_) ?_
  · refine Option.ext fun q => ?_
    rw [back.lists, tracks.lists]
  · rw [back.count, tracks.count]

theorem Tracks.tellsApart (tracks : d.Tracks S) (whole : p.IsWhole) : d.TellsApart S p where
  near w here there apart := by
    have clear : ∀ q, ¬ Blocks S p q := by
      intro q blocks
      have mem : q ∈ S := blocks.1
      exact apart q mem (overlaps_of_blocks whole (tracks.whole q mem) here (there q mem) blocks)
    refine ⟨clear, fun grant base other failed => ?_⟩
    rcases tracks.install_cases whole grant with ⟨-, done⟩ | ⟨q, blocks, -⟩ |
      ⟨-, -, -, d', done, -⟩ | ⟨-, -, -, short⟩
    · simp [done] at failed
    · exact clear q blocks
    · simp [done] at failed
    · simp [short] at failed
  overlapping q mem other overlaps grant := by
    have blocks := blocks_of_overlaps whole (tracks.whole q mem) mem other overlaps
    obtain ⟨r, blocked, failed⟩ := (tracks.actsAs whole).collided grant ⟨q, blocks⟩
    exact ⟨r, blocked.1, failed⟩
  wide fresh clear grant supplied := by
    rcases tracks.install_cases whole grant with ⟨mem, -⟩ | ⟨q, blocks, -⟩ |
      ⟨-, -, -, d', done, tracks'⟩ | ⟨-, -, ⟨g, mem, unused, refused⟩, -⟩
    · exact absurd mem fresh
    · exact absurd blocks (clear q)
    · refine ⟨d', done, tracks'.represents, fun a inside => ?_, tracks.remove_eq fresh tracks'⟩
      obtain ⟨low, high⟩ := Page.contains_iff.1 inside
      exact (tracks'.represents.lookup_iff a p).2 ⟨Finset.mem_insert_self p S, low, high⟩
    · rcases supplied g mem with used | granted
      · exact absurd used unused
      · simp [granted] at refused
  gone a held := by
    have listed := ((tracks.tracks_remove p).lists a p).1 held
    exact Finset.notMem_erase p S listed.1

end Pages

/-- **Folding only confuses pages that are far apart**: granules of one window have slots of their
own, so pages of one window collide if and only if they overlap, and a page that folds onto itself
is a page like any other. -/
theorem tellsApart_of_reachable {d : Directory} (reached : d.Reachable) :
    (∀ g h, granule ∣ g → granule ∣ h → g ≠ h → window g = window h → ¬ Aliases g h) ∧
      ∃ S, d.Represents S ∧ ∀ p : Page, p.IsWhole → d.TellsApart S p := by
  obtain ⟨S, tracks⟩ := exists_tracks_of_reachable reached
  refine ⟨?_, S, tracks.represents, fun p whole => tracks.tellsApart whole⟩
  intro g h wholeG wholeH differ near same
  exact differ (granule_eq_of_aliases wholeG wholeH near same)

/-- A page that begins `2 ^ 32` bytes below the end of a window and ends one granule above it. Its
last granule is folded onto its first one. -/
def doubled : Page := ⟨2, 0x7fff00000000, 0x100010000, .huge .raw, 0x100010000⟩

theorem tableIndex_of_doubled {a : Nat} (low : 0x7fff00000000 ≤ a) (high : a < 0x800000010000) :
    tableIndex a = 128 := by
  have parts : a >>> 32 = 32767 ∧ a >>> 40 = 127 ∨ a >>> 32 = 32768 ∧ a >>> 40 = 128 := by
    rw [Nat.shiftRight_eq_div_pow, Nat.shiftRight_eq_div_pow]
    omega
  unfold tableIndex
  rcases parts with ⟨word, top⟩ | ⟨word, top⟩
  · rw [word, top]
    rfl
  · rw [word, top]
    rfl

theorem tellsApart_of_reachable_doubled :
    let d := (({} : Directory).install (fun _ => true) loneNarrow).2
    d.Reachable ∧ doubled.IsWhole ∧
      window doubled.base ≠ window 0x800000000000 ∧ Aliases doubled.base 0x800000000000 ∧
      ∃ d', d.install (fun _ => true) doubled = (.ok (), d') ∧
        d'.lookup doubled.base = some doubled ∧ d'.lookup 0x800000000000 = some doubled ∧
        d'.lookup 0x30000 = some loneNarrow ∧ d'.remove doubled = d := by
  intro d
  have reached : d.Reachable :=
    .install _ .empty ⟨by decide, by decide, by decide, by decide⟩
  have whole : doubled.IsWhole := ⟨by decide, by decide, by decide, by decide⟩
  obtain ⟨-, S, represents, tells⟩ := tellsApart_of_reachable reached
  have found : d.lookup 0x30000 = some loneNarrow := by decide +kernel
  have single : d.pageCount = 1 := by decide +kernel
  have narrow := ((represents.lookup_iff 0x30000 loneNarrow).1 found).1
  have only : ∀ q ∈ S, q = loneNarrow := by
    intro q mem
    rw [represents.page_count] at single
    exact Finset.card_le_one.1 (Nat.le_of_eq single) q mem loneNarrow narrow
  have fresh : doubled ∉ S := fun mem => absurd (only doubled mem) (by decide)
  have clear : ∀ q, ¬ Blocks S doubled q := by
    rintro q ⟨mem, -, g, memG, h, memH, same⟩
    rw [only q mem] at memH
    obtain ⟨low, high⟩ := Page.contains_iff.1 (Page.contains_of_mem_granules memG)
    have table := tableIndex_of_doubled low high
    have other : ∀ h ∈ loneNarrow.granules, tableIndex h = 0 := by decide
    have apart : (0 : Nat) = 128 := (other h memH).symm.trans (same.1.trans table)
    exact absurd apart (by decide)
  obtain ⟨d', done, represents', everywhere, back⟩ :=
    (tells doubled whole).wide fresh clear (fun _ => true) fun _ _ => .inr rfl
  refine ⟨reached, whole, by decide, ⟨by decide, by decide⟩, d', done, ?_, ?_, ?_, back⟩
  · exact everywhere _ (by decide)
  · exact everywhere _ (by decide)
  · exact (represents'.lookup_iff _ _).2
      ⟨Finset.mem_insert_of_mem narrow, by decide, by decide⟩

end Directory

end MarkSweep
