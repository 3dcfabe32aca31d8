import MarkSweep.Proofs.HeapLogs

set_option autoImplicit false

namespace MarkSweep

namespace Arena

section Queries

variable {a : Arena} {x : Addr}

theorem blockAround?_eq_some (sound : a.Sound) {b : Block} :
    a.blockAround? x = some b ↔ a.Holds b ∧ b.Contains x := by
  unfold blockAround?
  constructor
  · intro around
    cases found : a.directory.lookup x with
    | none => simp [found] at around
    | some p =>
      obtain ⟨i, s, hs, rfl, -⟩ := (lookup_eq_some sound).1 found
      simp only [found, Option.map_eq_some_iff] at around
      obtain ⟨start, interior, rfl⟩ := around
      obtain ⟨k, allocated, rfl, inside⟩ := (resolveInterior_eq_some sound hs).1 interior
      exact ⟨holds_iff.2 ⟨i, s, k, hs, allocated, rfl⟩, inside⟩
  · rintro ⟨held, inside⟩
    obtain ⟨i, s, k, hs, allocated, rfl⟩ := holds_iff.1 held
    have here := contains_of_block sound hs allocated inside
    rw [(lookup_eq_some sound).2 ⟨i, s, hs, rfl, here⟩]
    simp only [(resolveInterior_eq_some sound hs).2 ⟨k, allocated, rfl, inside⟩, Option.map_some]
    rfl

theorem isBlockStart_iff (sound : a.Sound) :
    a.isBlockStart x = true ↔ ∃ b, a.Holds b ∧ b.addr = x := by
  unfold isBlockStart
  constructor
  · intro start
    cases found : a.directory.lookup x with
    | none => simp [found] at start
    | some p =>
      obtain ⟨i, s, hs, rfl, -⟩ := (lookup_eq_some sound).1 found
      simp only [found, Option.isSome_iff_exists] at start
      obtain ⟨k, known⟩ := start
      obtain ⟨allocated, here⟩ := (blockId?_eq_some sound hs).1 known
      exact ⟨s.block k, holds_iff.2 ⟨i, s, k, hs, allocated, rfl⟩, here⟩
  · rintro ⟨b, held, rfl⟩
    obtain ⟨i, s, k, hs, allocated, rfl⟩ := holds_iff.1 held
    have here := contains_blockAddr sound hs allocated
    rw [show (s.block k).addr = s.page.blockAddr k from rfl,
      (lookup_eq_some sound).2 ⟨i, s, hs, rfl, here⟩]
    exact Option.isSome_iff_exists.2 ⟨k, (blockId?_eq_some sound hs).2 ⟨allocated, rfl⟩⟩

/-- Whether the queries of a page agree on an address of it. -/
structure Resolves (a : Arena) (p : Page) (x : Addr) : Prop where
  interior : ∀ s, a.resolveInterior p x = some s → s ≤ x ∧ x < s + p.blockSize ∧
    ∃ i, a.blockId? p s = some i ∧ a.isAllocated p i = true ∧ p.blockAddr i = s
  again : ∀ s, a.resolveInterior p x = some s → a.resolveInterior p s = some s
  fixed : a.resolveInterior p x = some x ↔ ∃ b, a.Holds b ∧ b.addr = x
  exact_iff : (∃ i, a.blockId? p x = some i) ↔ a.resolveInterior p x = some x
  exact_spec : ∀ i, a.blockId? p x = some i → a.isAllocated p i = true ∧ p.blockAddr i = x

theorem resolves_of_lookup (sound : a.Sound) {p : Page} (installed : a.directory.lookup x = some p) :
    a.Resolves p x := by
  obtain ⟨i, s, hs, rfl, here⟩ := (lookup_eq_some sound).1 installed
  have fixed : a.resolveInterior s.page x = some x ↔
      ∃ k, s.isAllocated k = true ∧ s.page.blockAddr k = x := by
    rw [resolveInterior_eq_some sound hs]
    refine exists_congr fun k => and_congr_right fun _ => and_iff_left_of_imp ?_
    rintro rfl
    exact block_contains_start sound hs k
  constructor
  · intro start interior
    obtain ⟨k, allocated, rfl, inside⟩ := (resolveInterior_eq_some sound hs).1 interior
    refine ⟨inside.1, inside.2, k, (blockId?_eq_some sound hs).2 ⟨allocated, rfl⟩, ?_, rfl⟩
    rw [isAllocated_page sound hs]
    exact allocated
  · intro start interior
    obtain ⟨k, allocated, rfl, -⟩ := (resolveInterior_eq_some sound hs).1 interior
    exact (resolveInterior_eq_some sound hs).2
      ⟨k, allocated, rfl, block_contains_start sound hs k⟩
  · rw [fixed]
    constructor
    · rintro ⟨k, allocated, rfl⟩
      exact ⟨s.block k, holds_iff.2 ⟨i, s, k, hs, allocated, rfl⟩, rfl⟩
    · rintro ⟨b, held, rfl⟩
      obtain ⟨j, t, k, ht, allocated, rfl⟩ := holds_iff.1 held
      have there := contains_blockAddr sound ht allocated
      obtain rfl := position_unique sound hs ht here there
      obtain rfl := Option.some.inj (hs.symm.trans ht)
      exact ⟨k, allocated, rfl⟩
  · rw [fixed]
    exact exists_congr fun k => blockId?_eq_some sound hs
  · intro k known
    rw [isAllocated_page sound hs]
    exact (blockId?_eq_some sound hs).1 known

end Queries

end Arena

namespace Heap

variable {config : Config} {h : Heap}

/-- The last block that was handed out at an address. -/
def lastAt (x : Addr) (log : List Event) : Option Block :=
  (Event.blocks log).find? (·.addr = x)

/-- A block that is in use is the last that was handed out at its start: where one is in use no other
is handed out. -/
theorem lastAt_of_step {h' : Heap} {log events : List Event} (orderly : h.Orderly)
    (known : ∀ b, h.arena.Holds b → lastAt b.addr log = some b) (step : h.Step events h') (b : Block)
    (held : h'.arena.Holds b) : lastAt b.addr (events ++ log) = some b := by
  have sound := orderly.tallied.sound
  cases step with
  | quiet same => exact known b (same.arena ▸ held)
  | write w there inside => exact known b ((Arena.holds_write sound there inside w b).1 held)
  | achieve parking => exact known b (parking.arena ▸ held)
  | abandon parking => exact known b (parking.arena ▸ held)
  | mark same pending => exact known b ((Arena.holds_congr same b).1 held)
  | refuse aligned asked =>
    obtain ⟨-, ⟨-, kept⟩ | ⟨block, size, granted, -⟩⟩ := Arena.allocate_spec sound aligned asked
    · exact known b ((kept.holds_iff b).1 held)
    · cases granted
  | allocate aligned asked =>
    obtain ⟨sound', ⟨⟨e, refused⟩, -⟩ | ⟨block, size, granted, -, takes⟩⟩ :=
      Arena.allocate_spec sound aligned asked
    · cases refused
    · obtain rfl := Except.ok.inj granted
      have new := (takes.holds_iff _).2 (.inr rfl)
      change ((_ :: Event.blocks log).find? _) = _
      obtain before | rfl := (takes.holds_iff b).1 held
      · -- A block that was in use before cannot start where the new one does.
        rw [List.find?_cons_of_neg]
        · exact known b before
        · intro same
          have one := Arena.eq_of_addr_eq sound' new held (by simpa using same)
          exact takes.not_holds (one ▸ before)
      · exact List.find?_cons_of_pos (by simp)
  | collect nanos => exact known b ((Arena.holds_sweep sound b).1 held).1

theorem Logged.lastAt {log : List Event} (logged : Logged config h log) :
    ∀ b, h.arena.Holds b → lastAt b.addr log = some b := by
  refine (logged.induction (P := fun h log => ∀ b, h.arena.Holds b → Heap.lastAt b.addr log = some b)
    ?_ fun _ _ _ _ orderly known step => lastAt_of_step orderly known step).2
  rintro h made b ⟨s, hs, -⟩
  obtain ⟨-, rfl⟩ := new_cases made
  simp [Arena.new] at hs

structure Classifies (h : Heap) (x : Addr) : Prop where
  managed : h.isManaged x = true ↔ ∃! b, h.arena.Holds b ∧ b.Contains x
  sized : (h.blockSizeOf? x).isSome = true ↔ h.isManaged x = true
  size : ∀ b, h.arena.Holds b → b.Contains x → h.blockSizeOf? x = some b.size
  live : h.isLive x = true ↔ ∃ b, h.arena.Holds b ∧ b.addr = x
  page : ∀ p, h.arena.directory.lookup x = some p → h.arena.Resolves p x

theorem classifies_of_sound (sound : h.arena.Sound) (x : Addr) : h.Classifies x where
  managed := by
    unfold isManaged
    rw [Option.isSome_iff_exists]
    simp only [Arena.blockAround?_eq_some sound]
    constructor
    · rintro ⟨b, held, inside⟩
      exact ⟨b, ⟨held, inside⟩, fun c other =>
        Arena.eq_of_contains sound other.1 held other.2 inside⟩
    · rintro ⟨b, around, -⟩
      exact ⟨b, around⟩
  sized := by rw [blockSizeOf?, Option.isSome_map, isManaged]
  size := by
    intro b held inside
    rw [blockSizeOf?, (Arena.blockAround?_eq_some sound).2 ⟨held, inside⟩]
    rfl
  live := Arena.isBlockStart_iff sound
  page _ := Arena.resolves_of_lookup sound

/-- **The queries of a heap agree on every address**, and the size they give for the block around it
is the size it was handed out with. -/
theorem classifies_of_reachable (run : Reachable config h) (x : Addr) :
    h.Classifies x ∧ (∃ log, Logged config h log) ∧ ∀ log, Logged config h log →
      ∀ b, h.arena.Holds b → lastAt b.addr log = some b :=
  ⟨classifies_of_sound run.sound x, run.exists_logged, fun _ logged => logged.lastAt⟩

theorem classifies_of_reachable_sample :
    Reachable (.testing 0) sample ∧ (∀ x, sample.Classifies x) ∧
      sample.blockSizeOf? 70000 = some 4096 ∧ sample.isLive 70000 = false ∧
      sample.isLive 69632 = true ∧ sample.isManaged 81920 = false ∧
      (∃ p, sample.arena.directory.lookup 81920 = some p) ∧
      sample.arena.directory.lookup 131072 = none ∧
      ∃ log, Logged (.testing 0) sample log ∧ lastAt 69632 log = some ⟨69632, 4096⟩ := by
  have held : sample.arena.Holds ⟨69632, 4096⟩ := by decide +kernel
  obtain ⟨-, ⟨log, logged⟩, known⟩ := classifies_of_reachable reachable_sample 70000
  have page : (sample.arena.directory.lookup 81920).isSome = true := by decide +kernel
  exact ⟨reachable_sample, fun x => (classifies_of_reachable reachable_sample x).1,
    by decide +kernel, by decide +kernel, by decide +kernel, by decide +kernel,
    Option.isSome_iff_exists.1 page, by decide +kernel, log, logged, known log logged _ held⟩

end Heap

end MarkSweep
