import MarkSweep.Proofs.MarkTrace

set_option autoImplicit false

namespace MarkSweep

/-- Whether distinct blocks of a sound arena are on the stack, all of them marked. -/
structure Marker.Seeded (m : Marker) : Prop where
  sound : m.arena.Sound
  nodup : m.pending.entries.Nodup
  marked : ∀ x ∈ m.pending.entries, m.arena.Marks x

namespace Marker

open Arena

theorem unmarked_testAndMark (a : Arena) (p : Page) (k : Nat) :
    (a.testAndMark p k).2.unmarked + (a.testAndMark p k).1.toNat = a.unmarked := by
  unfold Arena.testAndMark
  cases a.byBase[p.base]? with
  | none => rfl
  | some i =>
    cases found : a.slabs[i]? with
    | none => simp [found]
    | some s =>
      have change := fun marks : Bitmap => total_set (fun s : Slab => s.marks.size - s.marks.count)
        (l := a.slabs.toList) (i := i) (by simpa using found) { s with marks }
      simp only [found, Bitmap.testAndSet, Arena.unmarked]
      split
      · next clear =>
        rw [Bool.and_eq_true, decide_eq_true_iff, Bool.not_eq_true'] at clear
        have room := Bitmap.count_le_size (s.marks.set k)
        have grown := Bitmap.count_set s.marks clear.1 clear.2
        have sum := change (s.marks.set k)
        rw [Bitmap.size_set] at room
        simp only [Bitmap.size_set, grown] at sum room
        rw [Array.toList_setIfInBounds]
        simp only [Bool.toNat_true]
        omega
      · have sum := change s.marks
        dsimp only at sum
        rw [Array.toList_setIfInBounds]
        simp only [Bool.toNat_false]
        omega

theorem fuel_claim (p : Page) (k : Nat) (x : Addr) (m : Marker) :
    (m.claim p k x).2.fuel = m.fuel := by
  have step := unmarked_testAndMark m.arena p k
  unfold claim fuel
  cases marking : m.arena.testAndMark p k with
  | mk won b =>
    rw [marking] at step
    cases won with
    | true =>
      simp only [Bool.toNat_true] at step
      simp only [MarkStack.size, MarkStack.push, List.length_cons]
      omega
    | false =>
      simp only [Bool.toNat_false] at step
      simp only [← step]
      rfl

theorem fuel_markExact (x : Addr) (m : Marker) : (m.markExact x).2.fuel = m.fuel := by
  unfold markExact
  cases m.arena.directory.lookup x with
  | none => rfl
  | some p =>
    cases found : m.arena.blockId? p x with
    | none => simp only [found]
    | some k =>
      simp only [found]
      exact fuel_claim p k x m

theorem fuel_markEach (words : List UInt64) (m : Marker) : (m.markEach words).fuel = m.fuel := by
  induction words generalizing m with
  | nil => rfl
  | cons w words ih =>
    change (markEach words (if w = 0 then m else (m.markExact w.toNat).2)).fuel = _
    rw [ih]
    split
    · rfl
    · exact fuel_markExact _ _

theorem clearMarks_markEach (words : List UInt64) (m : Marker) :
    (m.markEach words).arena.clearMarks = m.arena.clearMarks := by
  induction words generalizing m with
  | nil => rfl
  | cons w words ih =>
    change (markEach words (if w = 0 then m else (m.markExact w.toNat).2)).arena.clearMarks = _
    rw [ih]
    split
    · rfl
    · exact clearMarks_markExact _ _

theorem clearMarks_scan (ctx : MarkContext) (x : Addr) (m : Marker) :
    (m.scan ctx x).2.arena.clearMarks = m.arena.clearMarks := by
  unfold scan
  cases m.arena.references ctx.toSurroundings x with
  | error e => rfl
  | ok words => exact clearMarks_markEach words m

theorem clearMarks_drain (ctx : MarkContext) (budget : Nat) (m : Marker) :
    (m.drain ctx budget).2.arena.clearMarks = m.arena.clearMarks := by
  induction budget generalizing m with
  | zero => rfl
  | succ budget ih =>
    rw [drain]
    cases m.pending.pop with
    | none => rfl
    | some next =>
      have scanned := clearMarks_scan ctx next.1 { m with pending := next.2 }
      cases scanning : ({ m with pending := next.2 } : Marker).scan ctx next.1 with
      | mk result m' =>
        rw [scanning] at scanned
        cases result with
        | error e =>
          simp only [scanning]
          exact scanned
        | ok _ =>
          have rest := ih m'
          simp only [scanning]
          cases draining : m'.drain ctx budget with
          | mk result m'' =>
            rw [draining] at rest
            cases result <;> exact rest.trans scanned

variable {around : Surroundings} {a : Arena} {seeds scans : List Addr}

theorem tracing_markEach (sound : a.Sound) {words hands : List UInt64} {m : Marker}
    (tracing : a.Tracing around seeds m.arena scans m.pending.entries (words ++ hands)) :
    a.Tracing around seeds (m.markEach words).arena scans (m.markEach words).pending.entries
      hands := by
  induction words generalizing m with
  | nil => exact tracing
  | cons w words ih =>
    change a.Tracing around seeds
      (markEach words (if w = 0 then m else (m.markExact w.toNat).2)).arena scans
      (markEach words (if w = 0 then m else (m.markExact w.toNat).2)).pending.entries hands
    by_cases zero : w = 0
    · rw [if_pos zero]
      exact ih (tracing.drop fun leads => absurd zero leads.1)
    · rw [if_neg zero]
      obtain ⟨step, tracing⟩ | ⟨b, step, tracing⟩ := markExact_of_tracing sound zero tracing
      · rw [step]
        exact ih tracing
      · rw [step]
        exact ih tracing

/-- The blocks that draining takes from the stack, in this order. -/
def drained (ctx : MarkContext) : (budget : Nat) → Marker → List Addr
  | 0, _ => []
  | budget + 1, m =>
    match m.pending.pop with
    | none => []
    | some (addr, pending) =>
      addr :: drained ctx budget (({ m with pending } : Marker).scan ctx addr).2

theorem drain_ok {ctx : MarkContext} (sound : a.Sound) (marked : ∀ x ∈ seeds, a.Marks x)
    (budget : Nat) {m : Marker}
    (tracing : a.Tracing ctx.toSurroundings seeds m.arena scans m.pending.entries []) :
    ∃ n m', m.drain ctx budget = (.ok n, m') ∧ (m.drained ctx budget).length = n ∧
      a.Tracing ctx.toSurroundings seeds m'.arena (scans ++ m.drained ctx budget)
        m'.pending.entries [] ∧
      m'.fuel + n = m.fuel ∧ (n = budget ∨ m'.pending.entries = []) := by
  induction budget generalizing m scans with
  | zero => exact ⟨0, m, rfl, rfl, by rwa [drained, List.append_nil], rfl, .inl rfl⟩
  | succ budget ih =>
    cases entries : m.pending.entries with
    | nil =>
      have stop : m.pending.pop = none := MarkStack.pop_eq_none_iff.2 entries
      refine ⟨0, m, ?_, ?_, ?_, rfl, .inr entries⟩
      · rw [drain, stop]
      · rw [drained, stop]
        rfl
      · rwa [drained, stop, List.append_nil]
    | cons x rest =>
      have next : m.pending.pop = some (x, ⟨rest⟩) := MarkStack.pop_eq_some_iff.2 entries
      rw [entries] at tracing
      have starts : a.Starts x :=
        (tracing.traced x (List.mem_append_right _ List.mem_cons_self)).starts marked
      obtain ⟨words, refs⟩ := exists_references ctx.toSurroundings sound starts
      have refs' := (references_congr tracing.marked.1 ctx.toSurroundings x).trans refs
      have scanning : ({ m with pending := ⟨rest⟩ } : Marker).scan ctx x =
          (.ok (), ({ m with pending := ⟨rest⟩ } : Marker).markEach words) := by
        simp only [scan, refs']
      -- A mark set moves one unit of fuel from the unmarked blocks to the stack; the scan uses one.
      have burnt := fuel_markEach words { m with pending := ⟨rest⟩ }
      have taken := tracing_markEach (m := { m with pending := ⟨rest⟩ }) sound (tracing.take refs)
      obtain ⟨n, m', run, count, tracing', left, done⟩ := ih taken
      rw [drained, next]
      simp only [scanning]
      refine ⟨n + 1, m', ?_, ?_, ?_, ?_, ?_⟩
      · rw [drain, next]
        simp only [scanning, run]
      · rw [List.length_cons, count]
      · rwa [List.append_assoc] at tracing'
      · rw [burnt] at left
        simp only [fuel, MarkStack.size, entries, List.length_cons] at *
        omega
      · exact done.imp_left (congrArg (· + 1))

theorem drainAll_ok {m : Marker} (seeded : m.Seeded) (ctx : MarkContext) :
    ∃ m' scans, m.drainAll ctx = (.ok scans.length, m') ∧ m'.pending.entries = [] ∧
      m.arena.Tracing ctx.toSurroundings m.pending.entries m'.arena scans [] [] := by
  obtain ⟨n, m', run, count, tracing, left, done⟩ :=
    drain_ok seeded.sound seeded.marked m.fuel
      (tracing_start seeded.sound seeded.nodup seeded.marked)
  have empty : m'.pending.entries = [] := by
    obtain rfl | empty := done
    · have none_left : m'.pending.entries.length = 0 := by
        simp only [fuel, MarkStack.size] at left ⊢
        omega
      exact List.eq_nil_of_length_eq_zero none_left
    · exact empty
  rw [empty, List.nil_append] at tracing
  exact ⟨m', m.drained ctx m.fuel, count.symm ▸ run, empty, tracing⟩

end Marker

end MarkSweep
