import MarkSweep.Proofs.HeapInvariant

set_option autoImplicit false

namespace MarkSweep

theorem mem_takeWhile_lt {l : List Nat} (sorted : l.Pairwise (· < ·)) (n x : Nat) :
    x ∈ l.takeWhile (· < n) ↔ x ∈ l ∧ x < n := by
  induction l with
  | nil => simp
  | cons y l ih =>
    obtain ⟨above, sorted⟩ := List.pairwise_cons.1 sorted
    rw [List.takeWhile_cons]
    split
    · next low =>
      have small : y < n := of_decide_eq_true low
      rw [List.mem_cons, List.mem_cons, ih sorted]
      constructor
      · rintro (rfl | ⟨inside, below⟩)
        · exact ⟨.inl rfl, small⟩
        · exact ⟨.inr inside, below⟩
      · rintro ⟨rfl | inside, below⟩
        · exact .inl rfl
        · exact .inr ⟨inside, below⟩
    · next high =>
      have large : ¬ y < n := by simpa using high
      simp only [List.not_mem_nil, List.mem_cons, false_iff]
      rintro ⟨rfl | inside, below⟩
      · exact large below
      · exact large (Nat.lt_trans (above x inside) below)

theorem TypeLayout.mem_pointerWords {t : TypeLayout} {blockWords word : Nat} :
    word ∈ t.pointerWords blockWords ↔ t.IsReference word ∧ word < blockWords := by
  have sorted : (t.pointerMap.members.map (t.mapOffset + ·)).Pairwise (· < ·) := by
    rw [List.pairwise_map]
    exact (List.pairwise_lt_range.filter _).imp fun h => Nat.add_lt_add_left h _
  rw [pointerWords, mem_takeWhile_lt sorted, List.mem_map]
  refine and_congr_left fun _ => ?_
  unfold IsReference
  constructor
  · rintro ⟨i, member, rfl⟩
    obtain ⟨bound, set⟩ := Bitmap.mem_members.1 member
    rw [Nat.add_sub_cancel_left]
    exact ⟨Nat.le_add_right _ _, bound, set⟩
  · rintro ⟨low, bound, set⟩
    exact ⟨word - t.mapOffset, Bitmap.mem_members.2 ⟨bound, set⟩, Nat.add_sub_of_le low⟩

theorem Slab.mem_references {around : Surroundings} {s : Slab} {k : Nat} {w : UInt64} :
    w ∈ s.references around (s.page.blockAddr k) ↔ s.Refers around k w := by
  unfold references
  simp only
  cases kind : s.page.kind.contents with
  | pointerFree =>
    simp only [List.not_mem_nil, false_iff]
    intro refers
    cases refers with
    | raw raw => simp [kind] at raw
    | typed typed => simp [kind] at typed
  | raw =>
    simp only [List.mem_map, List.mem_range]
    constructor
    · rintro ⟨word, inside, rfl⟩
      exact .raw kind inside
    · intro refers
      cases refers with
      | @raw word _ inside => exact ⟨word, inside, rfl⟩
      | typed typed => simp [kind] at typed
  | typed =>
    simp only [Nat.zero_mul, Nat.add_zero]
    split
    · next unset =>
      simp only [List.not_mem_nil, false_iff]
      intro refers
      cases refers with
      | raw raw => simp [kind] at raw
      | typed _ isSet => exact isSet unset
    · next isSet =>
      cases named : around.layout? (s.read (s.page.blockAddr k)) with
      | none =>
        simp only [List.not_mem_nil, false_iff]
        intro refers
        cases refers with
        | raw raw => simp [kind] at raw
        | typed _ _ known => simp [named] at known
      | some layout =>
        simp only [List.mem_map, TypeLayout.mem_pointerWords]
        constructor
        · rintro ⟨word, ⟨flagged, inside⟩, rfl⟩
          exact .typed kind isSet named flagged inside
        · intro refers
          cases refers with
          | raw raw => simp [kind] at raw
          | @typed word layout' _ _ known flagged inside =>
            obtain rfl := Option.some.inj (named.symm.trans known)
            exact ⟨word, ⟨flagged, inside⟩, rfl⟩

theorem ThreadRecord.mem_stackAddrs {r : ThreadRecord} {x : Addr} :
    x ∈ r.stackAddrs ↔ wordBytes ∣ x ∧ r.scanStart ≤ x ∧ x + wordBytes ≤ r.stackTop := by
  have start : wordBytes ∣ r.scanStart := Nat.dvd_mul_left _ _
  simp only [stackAddrs, List.mem_map, List.mem_range]
  constructor
  · rintro ⟨k, hk, rfl⟩
    have fits := Nat.mul_le_of_le_div _ _ _ (Nat.succ_le_of_lt hk)
    rw [Nat.succ_mul] at fits
    refine ⟨Nat.dvd_add start (Nat.dvd_mul_left _ _), Nat.le_add_right _ _, ?_⟩
    unfold wordBytes at *
    lia
  · rintro ⟨aligned, low, high⟩
    obtain ⟨k, hk⟩ := Nat.dvd_sub aligned start
    refine ⟨k, ?_, ?_⟩
    · unfold wordBytes at *
      lia
    · unfold wordBytes at *
      lia

theorem ThreadRecord.mem_scannedWords {around : Surroundings} {r : ThreadRecord}
    {words : List UInt64} (scanned : r.scannedWords around = .ok words) {w : UInt64} :
    w ∈ words ↔ r.Shows around w := by
  unfold scannedWords at scanned
  split at scanned
  · next missing =>
    obtain rfl := Except.ok.inj scanned
    simp only [List.not_mem_nil, false_iff]
    intro shown
    cases shown with
    | stack captured => simp [captured] at missing
    | saved captured => simp [captured] at missing
  · next taken =>
    have captured : r.snapshot.isCaptured = true := by simpa using taken
    split at scanned
    · obtain rfl := Except.ok.inj scanned
      rw [List.mem_append, List.mem_map]
      constructor
      · rintro (⟨x, member, rfl⟩ | saved)
        · obtain ⟨aligned, low, high⟩ := mem_stackAddrs.1 member
          exact .stack captured aligned low high
        · exact .saved captured saved
      · intro shown
        cases shown with
        | @stack x _ aligned low high =>
          exact .inl ⟨x, mem_stackAddrs.2 ⟨aligned, low, high⟩, rfl⟩
        | saved _ saved => exact .inr saved
    · simp at scanned

theorem Slab.Refers.of_page {around : Surroundings} {s t : Slab} {k : Nat} {w : UInt64}
    (page : t.page = s.page) (positive : 0 < s.page.blockSize)
    (same : ∀ x, (s.block k).Contains x → t.read x = s.read x) (refers : s.Refers around k w) :
    t.Refers around k w := by
  have first : t.read (t.page.blockAddr k) = s.read (s.page.blockAddr k) := by
    rw [page]
    exact same _ ⟨Nat.le_refl _, Nat.lt_add_of_pos_right positive⟩
  have word : ∀ {word : Nat}, word < s.page.blockSize / wordBytes →
      s.read (s.page.blockAddr k + word * wordBytes) =
        t.read (t.page.blockAddr k + word * wordBytes) := by
    intro word inside
    rw [page]
    refine (same _ ⟨Nat.le_add_right _ _, Nat.add_lt_add_left ?_ _⟩).symm
    have fits := Nat.mul_le_of_le_div _ _ _ (Nat.succ_le_of_lt inside)
    rw [Nat.succ_mul] at fits
    exact Nat.lt_of_lt_of_le (Nat.lt_add_of_pos_right (by decide)) fits
  cases refers with
  | raw kind inside =>
    rw [word inside]
    rw [← page] at kind inside
    exact .raw kind inside
  | typed kind isSet named flagged inside =>
    rw [word inside]
    rw [← first] at isSet named
    rw [← page] at kind inside
    exact .typed kind isSet named flagged inside

namespace Heap

structure SameRoots (h h' : Heap) : Prop where
  roots : h'.roots = h.roots
  threads : h'.threads = h.threads
  handles : h'.handles = h.handles

theorem SameRoots.symm {h h' : Heap} (same : h.SameRoots h') : h'.SameRoots h :=
  ⟨same.roots.symm, same.threads.symm, same.handles.symm⟩

theorem SameRoots.trans {h h' h'' : Heap} (one : h.SameRoots h') (two : h'.SameRoots h'') :
    h.SameRoots h'' :=
  ⟨two.roots.trans one.roots, two.threads.trans one.threads, two.handles.trans one.handles⟩

section Retained

variable {around : Surroundings} {h h' : Heap}

theorem SameRoots.slotValue_eq (same : h.SameRoots h') (slot : RootSlot) :
    h'.slotValue around slot = h.slotValue around slot := by
  cases slot <;> simp only [slotValue, same.handles, same.threads]

theorem Retained.holds {b : Block} (retained : h.Retained around b) : h.arena.Holds b := by
  cases retained with
  | root held => exact held
  | thread held => exact held
  | edge _ _ _ _ held => exact held

/-- With the same roots and threads, an arena that carries the retained blocks retains them. -/
theorem Retained.carried (sound : h.arena.Sound) (same : h.SameRoots h')
    (carries : ∀ b, h.Retained around b → h.arena.Carries h'.arena b) {b : Block}
    (retained : h.Retained around b) : h'.Retained around b := by
  induction retained with
  | @root slot b held registered named =>
    have kept := (carries b (.root held registered named)).holds held
    rw [← same.slotValue_eq] at named
    rw [← same.roots] at registered
    exact .root kept registered named
  | @thread r w b held registered shown inside =>
    have kept := (carries b (.thread held registered shown inside)).holds held
    rw [← same.threads] at registered
    exact .thread kept registered shown inside
  | @edge s k w b owned allocated before refers held named ih =>
    have kept := (carries b (.edge owned allocated before refers held named)).holds held
    obtain ⟨i, found⟩ := Array.getElem?_of_mem owned
    obtain ⟨j, t, there, page, still, words⟩ := carries _ before i s k found allocated rfl
    have positive := (Arena.slab_sound sound found).cut.blockSize_pos
    have block : s.block k = t.block k := by rw [Slab.block, Slab.block, page]
    rw [block] at ih
    exact .edge (Array.mem_of_getElem? there) still ih (refers.of_page page positive words) kept
      named

end Retained

end Heap

namespace Arena

section Reached

variable {around : Surroundings} {a : Arena} {P : Addr → Prop}

theorem eq_of_addr_eq (sound : a.Sound) {b c : Block} (hb : a.Holds b) (hc : a.Holds c)
    (same : b.addr = c.addr) : b = c := by
  have start : ∀ d, a.Holds d → d.Contains d.addr := by
    intro d held
    obtain ⟨i, s, k, found, -, rfl⟩ := holds_iff.1 held
    exact block_contains_start sound found k
  have inside := start c hc
  rw [← same] at inside
  exact eq_of_contains sound hb hc (start b hb) inside

theorem Reached.starts (starts : ∀ x, P x → a.Starts x) {x : Addr}
    (reached : a.Reached around P x) : a.Starts x := by
  cases reached with
  | start source => exact starts x source
  | follow _ _ _ there => exact there

end Reached

end Arena

namespace Heap

def Shown (around : Surroundings) (h : Heap) (x : Addr) : Prop :=
  (∃ w ∈ h.rootValues around, w.toNat = x ∧ h.arena.Starts x) ∨
    Marker.ShownBy around h.arena h.threads.active x

theorem Shown.starts {around : Surroundings} {h : Heap} {x : Addr} (shown : h.Shown around x) :
    h.arena.Starts x :=
  shown.elim (fun ⟨_, _, _, there⟩ => there) Marker.ShownBy.starts

theorem retained_iff_reached {around : Surroundings} {h : Heap} (sound : h.arena.Sound)
    (scanned : ∀ r ∈ h.threads.active, ∃ words, r.scannedWords around = .ok words) {b : Block}
    (held : h.arena.Holds b) :
    h.Retained around b ↔ h.arena.Reached around (h.Shown around) b.addr := by
  constructor
  · clear held
    intro retained
    induction retained with
    | @root slot b held registered named =>
      refine .start (.inl ⟨_, ?_, named, Arena.starts_iff_holds.2 ⟨b, held, rfl⟩⟩)
      exact List.mem_map.2 ⟨slot, Array.mem_toList_iff.2 registered, rfl⟩
    | @thread r w b held registered shown inside =>
      obtain ⟨words, hwords⟩ := scanned r registered
      have member := (ThreadRecord.mem_scannedWords hwords).2 shown
      exact .start (.inr ⟨r, registered, words, hwords, w, member, b, held, rfl, inside⟩)
    | @edge s k w b owned allocated before refers held named ih =>
      obtain ⟨i, found⟩ := Array.getElem?_of_mem owned
      obtain ⟨t, ht, -, -, words⟩ :=
        @Arena.references_of_places around _ _ sound _ _ ⟨s, found, allocated, rfl⟩
      obtain rfl := Option.some.inj (found.symm.trans ht)
      rw [← named]
      refine .follow ih words (Slab.mem_references.2 refers) ?_
      exact Arena.starts_iff_holds.2 ⟨b, held, named.symm⟩
  · generalize start : b.addr = x
    intro reached
    induction reached generalizing b with
    | @start x source =>
      obtain ⟨w, member, named, -⟩ |
        ⟨r, registered, words, hwords, w, member, c, hc, same, inside⟩ := source
      · obtain ⟨slot, registered, rfl⟩ := List.mem_map.1 member
        exact .root held (Array.mem_toList_iff.1 registered) (named.trans start.symm)
      · obtain rfl := Arena.eq_of_addr_eq sound hc held (same.trans start.symm)
        exact .thread hc registered ((ThreadRecord.mem_scannedWords hwords).1 member) inside
    | @follow x words w before scanned' member starts ih =>
      obtain ⟨i, k, place⟩ := before.starts fun _ => Shown.starts
      obtain ⟨s, found, allocated, rfl, words'⟩ := Arena.references_of_places sound place
      obtain rfl := Except.ok.inj (words'.symm.trans scanned')
      have there := Arena.holds_iff.2 ⟨i, s, k, found, allocated, rfl⟩
      exact .edge (Array.mem_of_getElem? found) allocated (ih there rfl)
        (Slab.mem_references.1 member) held start.symm

end Heap

end MarkSweep
