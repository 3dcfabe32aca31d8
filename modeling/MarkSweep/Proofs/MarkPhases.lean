import MarkSweep.Proofs.PoolRuns

set_option autoImplicit false

namespace MarkSweep

def Arena.Points (a : Arena) (w : UInt64) (x : Addr) : Prop :=
  ∃ b, a.Holds b ∧ b.addr = x ∧ b.Contains w.toNat

/-- The blocks that certain blocks lead to, themselves included. -/
inductive Arena.Reached (around : Surroundings) (a : Arena) (P : Addr → Prop) : Addr → Prop
  | start {x : Addr} (source : P x) : Arena.Reached around a P x
  | follow {x : Addr} {words : List UInt64} {w : UInt64} (before : Arena.Reached around a P x)
      (scanned : a.references around x = .ok words) (mem : w ∈ words) (starts : a.Starts w.toNat) :
      Arena.Reached around a P w.toNat

namespace Marker

open Arena

theorem clearMarks_markConservative (ctx : MarkContext) (x : Addr) (m : Marker) :
    (m.markConservative ctx x).2.arena.clearMarks = m.arena.clearMarks := by
  unfold markConservative
  cases m.arena.directory.lookup x with
  | none => rfl
  | some p =>
    cases resolved : ctx.resolve m.arena p x with
    | none => simp only [resolved]
    | some start =>
      cases found : m.arena.blockId? p start with
      | none => simp only [resolved, found]
      | some k =>
        simp only [resolved, found]
        exact clearMarks_claim p k start m

theorem clearMarks_markAround (ctx : MarkContext) (words : List UInt64) (m : Marker) :
    (m.markAround ctx words).2.arena.clearMarks = m.arena.clearMarks := by
  induction words generalizing m with
  | nil => rfl
  | cons w words ih =>
    unfold markAround
    split
    · exact ih m
    · have step := clearMarks_markConservative ctx w.toNat m
      cases marking : m.markConservative ctx w.toNat with
      | mk result m₁ =>
        rw [marking] at step
        cases result with
        | error e => exact step
        | ok won => exact (ih m₁).trans step

theorem clearMarks_scanThread (ctx : MarkContext) (r : ThreadRecord) (m : Marker) :
    (m.scanThread ctx r).2.arena.clearMarks = m.arena.clearMarks := by
  unfold scanThread
  cases r.scannedWords ctx.toSurroundings with
  | error e => rfl
  | ok words =>
    have step := clearMarks_markAround ctx words m
    cases marking : m.markAround ctx words with
    | mk result m₁ =>
      simp only [marking]
      rw [marking] at step
      cases result <;> exact step

theorem clearMarks_scanThreads (ctx : MarkContext) (threads : List ThreadRecord) (m : Marker) :
    (m.scanThreads ctx threads).2.arena.clearMarks = m.arena.clearMarks := by
  induction threads generalizing m with
  | nil => rfl
  | cons r rest ih =>
    unfold scanThreads
    have step := clearMarks_scanThread ctx r m
    cases scanning : m.scanThread ctx r with
    | mk result m₁ =>
      rw [scanning] at step
      cases result with
      | error e => exact step
      | ok words =>
        have others := ih m₁
        cases scanning' : m₁.scanThreads ctx rest with
        | mk result' m₂ =>
          simp only [scanning']
          rw [scanning'] at others
          cases result' <;> exact others.trans step

theorem clearMarks_markPhaseBy {drain : Marker → Except Error Nat × Marker} {ctx : MarkContext}
    (emptied : ∀ m, Marker.Emptied ctx m (drain m)) (roots : List UInt64)
    (threads : List ThreadRecord) (m : Marker) :
    (m.markPhaseBy drain ctx roots threads).2.arena.clearMarks = m.arena.clearMarks := by
  have rooted := clearMarks_markEach roots { m with pending := {} }
  have scanned := clearMarks_scanThreads ctx threads (markEach roots { m with pending := {} })
  unfold markPhaseBy
  cases scanning : (markEach roots { m with pending := {} }).scanThreads ctx threads with
  | mk result m₁ =>
    rw [scanning] at scanned
    cases result with
    | error e => exact scanned.trans rooted
    | ok words =>
      have drained := clearMarks_of_emptied (emptied m₁)
      simp only
      cases draining : drain m₁ with
      | mk result' m₂ =>
        rw [draining] at drained
        cases result' <;> exact drained.trans (scanned.trans rooted)

/-- Whether an arena without marks has got marks on certain blocks, which are on the stack. -/
structure Finds (a : Arena) (P : Addr → Prop) (m : Marker) : Prop where
  marked : a.MarkedAt m.pending.entries m.arena
  nodup : m.pending.entries.Nodup
  mem_iff : ∀ x, x ∈ m.pending.entries ↔ P x

section Finding

variable {a : Arena} {P : Addr → Prop} {m : Marker}

theorem Finds.congr {Q : Addr → Prop} (finds : Finds a P m) (same : ∀ x, P x ↔ Q x) :
    Finds a Q m :=
  ⟨finds.marked, finds.nodup, fun x => (finds.mem_iff x).trans (same x)⟩

theorem finds_markExact (sound : a.Sound) (clear : ∀ x, ¬ a.Marks x) (finds : Finds a P m)
    (x : Addr) : Finds a (fun y => P y ∨ y = x ∧ a.Starts x) (m.markExact x).2 := by
  obtain ⟨step, known⟩ | ⟨starts, -, new, b, step, marked⟩ :=
    markExact_cases sound finds.marked x
  · rw [step]
    refine finds.congr fun y => ⟨.inl, ?_⟩
    rintro (h | ⟨rfl, starts⟩)
    · exact h
    · exact (finds.mem_iff y).1 (known starts (clear y))
  · rw [step]
    refine ⟨marked, List.nodup_cons.2 ⟨new, finds.nodup⟩, fun y => ?_⟩
    change y ∈ x :: m.pending.entries ↔ _
    rw [List.mem_cons, finds.mem_iff, or_comm]
    simp [starts]

theorem not_points_zero (sound : a.Sound) (x : Addr) : ¬ a.Points 0 x := by
  rintro ⟨b, held, -, low, -⟩
  obtain ⟨i, s, k, found, allocated, rfl⟩ := holds_iff.1 held
  have positive := (slab_sound sound found).cut.base_pos
  have bottom := Page.base_le_blockAddr s.page k
  change s.page.blockAddr k ≤ 0 at low
  lia

theorem points_of_starts {w : UInt64} (sound : a.Sound) (starts : a.Starts w.toNat) :
    a.Points w w.toNat := by
  obtain ⟨i, k, s, found, allocated, start⟩ := starts
  refine ⟨s.block k, holds_iff.2 ⟨i, s, k, found, allocated, rfl⟩, start, ?_⟩
  rw [← start]
  exact block_contains_start sound found k

theorem finds_markEach (sound : a.Sound) (clear : ∀ x, ¬ a.Marks x) (finds : Finds a P m)
    (words : List UInt64) :
    Finds a (fun x => P x ∨ ∃ w ∈ words, w.toNat = x ∧ a.Starts x) (m.markEach words) := by
  induction words generalizing m P with
  | nil => exact finds.congr fun x => by simp
  | cons w words ih =>
    change Finds a _ (markEach words (if w = 0 then m else (m.markExact w.toNat).2))
    split
    · next zero =>
      refine (ih finds).congr fun x => or_congr_right ?_
      have nothing : ¬ (w.toNat = x ∧ a.Starts x) := by
        rintro ⟨rfl, starts⟩
        exact not_points_zero sound _ (zero ▸ points_of_starts sound starts)
      simp only [List.mem_cons, exists_eq_or_imp, nothing, false_or]
    · refine (ih (finds_markExact sound clear finds w.toNat)).congr fun x => ?_
      simp only [List.mem_cons, exists_eq_or_imp, or_assoc, eq_comm (b := w.toNat)]
      refine or_congr_right (or_congr_left (and_congr_right ?_))
      rintro rfl
      exact Iff.rfl

/-- The block around an address is looked up first, and then marked by its start. -/
theorem markConservative_eq (sound : m.arena.Sound) {ctx : MarkContext}
    (resolve : ctx.resolve = Arena.resolveInterior) (x : Addr) :
    (m.markConservative ctx x = (.ok false, m) ∧ ∀ b, m.arena.Holds b → ¬ b.Contains x) ∨
      ∃ b, m.arena.Holds b ∧ b.Contains x ∧
        m.markConservative ctx x = (.ok (m.markExact b.addr).1, (m.markExact b.addr).2) := by
  unfold markConservative
  rw [resolve]
  cases found : m.arena.directory.lookup x with
  | none =>
    refine .inl ⟨rfl, fun b held inside => ?_⟩
    obtain ⟨i, s, k, hs, allocated, rfl⟩ := holds_iff.1 held
    have there := contains_of_block sound hs allocated inside
    rw [(lookup_eq_some sound).2 ⟨i, s, hs, rfl, there⟩] at found
    simp at found
  | some p =>
    obtain ⟨i, s, hs, rfl, here⟩ := (lookup_eq_some sound).1 found
    cases resolved : m.arena.resolveInterior s.page x with
    | none =>
      refine .inl ⟨by simp only [resolved], fun b held inside => ?_⟩
      obtain ⟨j, t, k, ht, allocated, rfl⟩ := holds_iff.1 held
      have there := contains_of_block sound ht allocated inside
      obtain rfl := position_unique sound hs ht here there
      obtain rfl := Option.some.inj (hs.symm.trans ht)
      rw [(resolveInterior_eq_some sound hs).2 ⟨k, allocated, rfl, inside⟩] at resolved
      simp at resolved
    | some start =>
      obtain ⟨k, allocated, rfl, inside⟩ := (resolveInterior_eq_some sound hs).1 resolved
      obtain ⟨t, ht, -, step⟩ := markExact_of_places sound ⟨s, hs, allocated, rfl⟩
      obtain rfl := Option.some.inj (hs.symm.trans ht)
      refine .inr ⟨s.block k, holds_iff.2 ⟨i, s, k, hs, allocated, rfl⟩, inside, ?_⟩
      have index := (blockId?_eq_some sound hs).2 ⟨allocated, rfl⟩
      simp only [resolved, index]
      rw [show (s.block k).addr = s.page.blockAddr k from rfl, step]

theorem finds_markConservative (sound : a.Sound) (clear : ∀ x, ¬ a.Marks x) (finds : Finds a P m)
    {ctx : MarkContext} (resolve : ctx.resolve = Arena.resolveInterior) (w : UInt64) :
    ∃ won m', m.markConservative ctx w.toNat = (.ok won, m') ∧
      Finds a (fun x => P x ∨ a.Points w x) m' := by
  have same := finds.marked.1
  obtain ⟨step, nothing⟩ | ⟨b, held, inside, step⟩ :=
    markConservative_eq (sound_congr same sound) resolve w.toNat
  · refine ⟨false, m, step, finds.congr fun x => ⟨.inl, ?_⟩⟩
    rintro (h | ⟨b, held, -, inside⟩)
    · exact h
    · exact absurd inside (nothing b ((holds_congr same b).2 held))
  · have held' := (holds_congr same b).1 held
    refine ⟨_, _, step, (finds_markExact sound clear finds b.addr).congr fun x => or_congr_right ?_⟩
    constructor
    · rintro ⟨rfl, -⟩
      exact ⟨b, held', rfl, inside⟩
    · rintro ⟨c, heldc, rfl, insidec⟩
      obtain rfl := eq_of_contains sound held' heldc inside insidec
      exact ⟨rfl, starts_iff_holds.2 ⟨b, held', rfl⟩⟩

theorem finds_markAround (sound : a.Sound) (clear : ∀ x, ¬ a.Marks x) (finds : Finds a P m)
    {ctx : MarkContext} (resolve : ctx.resolve = Arena.resolveInterior) (words : List UInt64) :
    ∃ m', m.markAround ctx words = (.ok (), m') ∧
      Finds a (fun x => P x ∨ ∃ w ∈ words, a.Points w x) m' := by
  induction words generalizing m P with
  | nil => exact ⟨m, rfl, finds.congr fun x => by simp⟩
  | cons w words ih =>
    unfold markAround
    split
    · next zero =>
      obtain ⟨m', step, finds'⟩ := ih finds
      refine ⟨m', step, finds'.congr fun x => or_congr_right ?_⟩
      have nothing : ¬ a.Points w x := zero ▸ not_points_zero sound x
      simp only [List.mem_cons, exists_eq_or_imp, nothing, false_or]
    · obtain ⟨won, m₁, step, finds₁⟩ := finds_markConservative sound clear finds resolve w
      obtain ⟨m', step', finds'⟩ := ih finds₁
      refine ⟨m', by simp only [step, step'], finds'.congr fun x => ?_⟩
      simp only [List.mem_cons, exists_eq_or_imp, or_assoc]

def ShownBy (around : Surroundings) (a : Arena) (threads : List ThreadRecord) (x : Addr) : Prop :=
  ∃ r ∈ threads, ∃ words, r.scannedWords around = .ok words ∧ ∃ w ∈ words, a.Points w x

theorem finds_scanThreads (sound : a.Sound) (clear : ∀ x, ¬ a.Marks x) (finds : Finds a P m)
    {ctx : MarkContext} (resolve : ctx.resolve = Arena.resolveInterior)
    {threads : List ThreadRecord} {n : Nat} {m' : Marker}
    (scanned : m.scanThreads ctx threads = (.ok n, m')) :
    Finds a (fun x => P x ∨ ShownBy ctx.toSurroundings a threads x) m' ∧
      ∀ r ∈ threads, ∃ words, r.scannedWords ctx.toSurroundings = .ok words := by
  induction threads generalizing m P n with
  | nil =>
    obtain ⟨-, rfl⟩ := Prod.mk.inj scanned
    exact ⟨finds.congr fun x => by simp [ShownBy], by simp⟩
  | cons r rest ih =>
    unfold scanThreads scanThread at scanned
    cases shown : r.scannedWords ctx.toSurroundings with
    | error e => simp [shown] at scanned
    | ok words =>
      obtain ⟨m₁, step, finds₁⟩ := finds_markAround sound clear finds resolve words
      simp only [shown, step] at scanned
      cases scanning : m₁.scanThreads ctx rest with
      | mk result m₂ =>
        rw [scanning] at scanned
        cases result with
        | error e => simp at scanned
        | ok more =>
          obtain ⟨-, rfl⟩ := Prod.mk.inj scanned
          obtain ⟨finds₂, others⟩ := ih finds₁ scanning
          refine ⟨finds₂.congr fun x => ?_, ?_⟩
          · simp [ShownBy, shown, or_assoc]
          · intro t ht
            obtain rfl | ht := List.mem_cons.1 ht
            · exact ⟨words, shown⟩
            · exact others t ht

theorem Finds.seeded (finds : Finds a P m) (sound : a.Sound) (starts : ∀ x, P x → a.Starts x) :
    m.Seeded where
  sound := sound_congr finds.marked.1 sound
  nodup := finds.nodup
  marked := fun x hx => (finds.marked.marks_iff (starts x ((finds.mem_iff x).1 hx))).2 (.inr hx)

theorem Finds.traced_iff (finds : Finds a P m) (sound : a.Sound) (clear : ∀ x, ¬ a.Marks x)
    {around : Surroundings} {x : Addr} :
    m.arena.Traced around m.pending.entries x ↔ a.Reached around P x := by
  have same := finds.marked.1
  constructor
  · intro traced
    induction traced with
    | seed mem => exact .start ((finds.mem_iff _).1 mem)
    | follow before scanned mem leads ih =>
      rw [references_congr same] at scanned
      exact .follow ih scanned mem ((starts_congr same _).1 leads.2.1)
  · intro reached
    induction reached with
    | start source => exact .seed ((finds.mem_iff _).2 source)
    | @follow x words w before scanned mem starts ih =>
      have marked := finds.marked.marks_iff starts
      by_cases found : m.arena.Marks w.toNat
      · exact .seed ((marked.1 found).resolve_left (clear _))
      · have nonzero : w ≠ 0 := by
          rintro rfl
          exact not_points_zero sound _ (points_of_starts sound starts)
        rw [← references_congr same] at scanned
        exact .follow ih scanned mem ⟨nonzero, (starts_congr same _).2 starts, found⟩

theorem ShownBy.starts {around : Surroundings} {threads : List ThreadRecord} {x : Addr}
    (shown : ShownBy around a threads x) : a.Starts x := by
  obtain ⟨-, -, -, -, w, -, b, held, start, -⟩ := shown
  exact starts_iff_holds.2 ⟨b, held, start⟩

theorem exists_tracing_of_markPhaseBy (sound : a.Sound) (clear : ∀ x, ¬ a.Marks x)
    {drain : Marker → Except Error Nat × Marker} {ctx : MarkContext}
    (resolve : ctx.resolve = Arena.resolveInterior)
    (emptied : ∀ m, Marker.Emptied ctx m (drain m)) {roots : List UInt64}
    {threads : List ThreadRecord} (arena : m.arena = a) {report : MarkReport} {m' : Marker}
    (done : m.markPhaseBy drain ctx roots threads = (.ok report, m')) :
    (∀ r ∈ threads, ∃ words, r.scannedWords ctx.toSurroundings = .ok words) ∧
      ∃ m₁ scans, Finds a (fun y => (∃ w ∈ roots, w.toNat = y ∧ a.Starts y) ∨
          ShownBy ctx.toSurroundings a threads y) m₁ ∧
        report.marked = scans.length ∧
        m₁.arena.Tracing ctx.toSurroundings m₁.pending.entries m'.arena scans [] [] := by
  have nothing : Finds a (fun _ => False) { m with pending := {} } :=
    ⟨arena ▸ markedAt_self _, List.nodup_nil, by simp⟩
  have rooted := finds_markEach sound clear nothing roots
  unfold markPhaseBy at done
  cases scanning : (markEach roots { m with pending := {} }).scanThreads ctx threads with
  | mk result m₁ =>
    rw [scanning] at done
    cases result with
    | error e => simp at done
    | ok stackWords =>
      obtain ⟨finds, scanned⟩ := finds_scanThreads sound clear rooted resolve scanning
      replace finds := finds.congr fun x => or_congr_left (iff_of_eq (false_or _))
      have seeded := finds.seeded sound fun y source =>
        source.elim (fun ⟨_, _, _, h⟩ => h) ShownBy.starts
      simp only at done
      cases draining : drain m₁ with
      | mk result' m₂ =>
        rw [draining] at done
        cases result' with
        | error e => simp at done
        | ok marked =>
          obtain ⟨same, rfl⟩ := Prod.mk.inj done
          obtain ⟨scans, count, tracing⟩ := tracing_of_emptied seeded (draining ▸ emptied m₁)
          exact ⟨scanned, m₁, scans, finds, by rw [← Except.ok.inj same, count], tracing⟩

theorem exists_scans_of_markPhaseBy (sound : a.Sound) (clear : ∀ x, ¬ a.Marks x)
    {drain : Marker → Except Error Nat × Marker} {ctx : MarkContext}
    (resolve : ctx.resolve = Arena.resolveInterior)
    (emptied : ∀ m, Marker.Emptied ctx m (drain m)) {roots : List UInt64}
    {threads : List ThreadRecord} (arena : m.arena = a) {report : MarkReport} {m' : Marker}
    (done : m.markPhaseBy drain ctx roots threads = (.ok report, m')) :
    ∃ scans, scans.Nodup ∧ report.marked = scans.length ∧ a.MarkedAt scans m'.arena ∧
      ∀ x ∈ scans, a.Starts x := by
  obtain ⟨-, m₁, scans, finds, count, tracing⟩ :=
    exists_tracing_of_markPhaseBy sound clear resolve emptied arena done
  have marked := tracing.marked
  have nodup := tracing.nodup
  have seeds := tracing.seeded
  have traced := tracing.traced
  rw [List.append_nil] at marked nodup seeds traced
  have same := finds.marked.1
  refine ⟨scans, nodup, count, ⟨marked.1.trans same, fun i k => ?_⟩, fun x hx => ?_⟩
  · simp only [marked.2, finds.marked.2, places_congr same]
    rw [or_assoc]
    refine or_congr_right (or_iff_right_of_imp ?_)
    rintro ⟨x, hx, place⟩
    exact ⟨x, seeds x hx, place⟩
  · refine (starts_congr same x).1 ((traced x hx).starts fun y hy => ?_)
    have starts : a.Starts y := ((finds.mem_iff y).1 hy).elim (fun ⟨_, _, _, h⟩ => h) ShownBy.starts
    exact (finds.marked.marks_iff starts).2 (.inr hy)

/-- A mark phase that succeeds has scanned every thread and marked what the roots and the threads
lead to. -/
theorem marks_iff_of_markPhaseBy (sound : a.Sound) (clear : ∀ x, ¬ a.Marks x)
    {drain : Marker → Except Error Nat × Marker} {ctx : MarkContext}
    (resolve : ctx.resolve = Arena.resolveInterior)
    (emptied : ∀ m, Marker.Emptied ctx m (drain m)) {roots : List UInt64}
    {threads : List ThreadRecord} (arena : m.arena = a) {report : MarkReport} {m' : Marker}
    (done : m.markPhaseBy drain ctx roots threads = (.ok report, m')) :
    (∀ r ∈ threads, ∃ words, r.scannedWords ctx.toSurroundings = .ok words) ∧
      ∀ x, a.Starts x → (m'.arena.Marks x ↔ a.Reached ctx.toSurroundings
        (fun y => (∃ w ∈ roots, w.toNat = y ∧ a.Starts y) ∨
          ShownBy ctx.toSurroundings a threads y) x) := by
  obtain ⟨scanned, m₁, scans, finds, -, tracing⟩ :=
    exists_tracing_of_markPhaseBy sound clear resolve emptied arena done
  refine ⟨scanned, fun x starts => ?_⟩
  rw [← finds.traced_iff sound clear, ← tracing.mem_scans_iff]
  -- No block was marked at first, so the marked ones are the seeds and the scanned ones.
  have seeds := tracing.seeded
  have marks := tracing.marked.marks_iff ((starts_congr finds.marked.1 x).2 starts)
  rw [List.append_nil] at seeds marks
  rw [marks, finds.marked.marks_iff starts, or_iff_right (clear x)]
  exact or_iff_right_of_imp (seeds x)

end Finding

end Marker

end MarkSweep
