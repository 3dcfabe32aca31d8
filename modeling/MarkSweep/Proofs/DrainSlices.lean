import Mathlib.Data.List.Perm.Subperm
import MarkSweep.Proofs.PoolAgreement

set_option autoImplicit false

namespace MarkSweep

def Arena.marked (a : Arena) : Nat := total (·.marks.count) a.slabs.toList

theorem Arena.marked_add_unmarked (a : Arena) : a.marked + a.unmarked = a.clearMarks.unmarked := by
  have clear : ∀ b : Bitmap, b.clear.size - b.clear.count = b.size := by
    intro b
    have none_set : b.clear.get = fun _ => false := funext b.get_clear
    simp [Bitmap.count, none_set]
  have parts := total_add (·.marks.count) (fun s : Slab => s.marks.size - s.marks.count)
    a.slabs.toList
  rw [marked, unmarked, ← parts, unmarked, clearMarks, Array.toList_map, total_map]
  refine total_congr fun s _ => ?_
  rw [clear]
  exact Nat.add_sub_of_le (Bitmap.count_le_size s.marks)

theorem Arena.Starts.pos_and_lt {a : Arena} {x : Addr} (sound : a.Sound) (starts : a.Starts x) :
    0 < x ∧ x < UInt64.size := by
  obtain ⟨i, k, s, found, allocated, rfl⟩ := starts
  have cut := (slab_sound sound found).cut
  have inside := contains_blockAddr sound found allocated
  rw [Page.contains, Bool.and_eq_true, decide_eq_true_iff, decide_eq_true_iff] at inside
  exact ⟨Nat.lt_of_lt_of_le cut.base_pos inside.1, Nat.lt_trans inside.2 cut.whole.2.2.2⟩

theorem Arena.length_lt_of_starts {a : Arena} {l : List Addr} (sound : a.Sound) (nodup : l.Nodup)
    (starts : ∀ x ∈ l, a.Starts x) : l.length < UInt64.size := by
  have among : l ⊆ List.range' 1 (UInt64.size - 1) := fun x mem => by
    obtain ⟨low, high⟩ := (starts x mem).pos_and_lt sound
    rw [List.mem_range'_1]
    lia
  have short := (nodup.subperm among).length_le
  rw [List.length_range'] at short
  exact Nat.lt_of_le_of_lt short (by decide)

namespace Marker

open Arena

section Slices

variable {ctx : MarkContext} {m m₁ m' : Marker}

theorem drain_of_empty (empty : m.pending.entries = []) (budget : Nat) :
    m.drain ctx budget = (.ok 0, m) := by
  cases budget with
  | zero => rfl
  | succ budget => rw [drain, MarkStack.pop_eq_none_iff.2 empty]

theorem drain_succ_eq_ok {x : Addr} {pending : MarkStack}
    (next : m.pending.pop = some (x, pending)) {budget n : Nat} :
    m.drain ctx (budget + 1) = (.ok n, m') ↔
      ∃ m₁ n', ({ m with pending } : Marker).scan ctx x = (.ok (), m₁) ∧
        m₁.drain ctx budget = (.ok n', m') ∧ n = n' + 1 := by
  rw [drain, next]
  simp only
  cases ({ m with pending } : Marker).scan ctx x with
  | mk result m₁ =>
    cases result with
    | error e => simp
    | ok _ =>
      simp only [Prod.mk.injEq, true_and, exists_and_left, exists_eq_left']
      cases m₁.drain ctx budget with
      | mk result m₂ =>
        cases result with
        | error e => simp
        | ok n' => simp [eq_comm, and_comm]

/-- A drain with a part of the budget, followed by one with the rest, is one with the whole. -/
theorem drain_add {k l a b : Nat} (first : m.drain ctx k = (.ok a, m₁))
    (second : m₁.drain ctx l = (.ok b, m')) : m.drain ctx (k + l) = (.ok (a + b), m') := by
  induction k generalizing m a with
  | zero =>
    obtain ⟨rfl, rfl⟩ : 0 = a ∧ m = m₁ := by simpa [drain] using first
    rwa [Nat.zero_add, Nat.zero_add]
  | succ k ih =>
    cases next : m.pending.pop with
    | none =>
      have empty : m.pending.entries = [] := MarkStack.pop_eq_none_iff.1 next
      rw [drain_of_empty empty] at first
      obtain ⟨rfl, rfl⟩ : 0 = a ∧ m = m₁ := by simpa using first
      rw [drain_of_empty empty] at second ⊢
      rwa [Nat.zero_add]
    | some entry =>
      obtain ⟨m₂, a', scanned, rest, rfl⟩ := (drain_succ_eq_ok next).1 first
      rw [Nat.add_right_comm]
      exact (drain_succ_eq_ok next).2 ⟨m₂, a' + b, scanned, ih rest, Nat.add_right_comm a' 1 b⟩

/-- A drain needs no more of a budget than the scans that it makes. -/
theorem drain_of_drain {k n : Nat} (run : m.drain ctx k = (.ok n, m')) :
    m.drain ctx n = (.ok n, m') := by
  induction k generalizing m n with
  | zero =>
    obtain ⟨rfl, rfl⟩ : 0 = n ∧ m = m' := by simpa [drain] using run
    rfl
  | succ k ih =>
    cases next : m.pending.pop with
    | none =>
      obtain ⟨rfl, rfl⟩ : 0 = n ∧ m = m' := by simpa [drain, next] using run
      rfl
    | some entry =>
      obtain ⟨m₁, n', scanned, rest, rfl⟩ := (drain_succ_eq_ok next).1 run
      exact (drain_succ_eq_ok next).2 ⟨m₁, n', scanned, ih rest, rfl⟩

theorem drain_of_le {k n budget : Nat} (run : m.drain ctx k = (.ok n, m'))
    (empty : m'.pending.entries = []) (enough : n ≤ budget) :
    m.drain ctx budget = (.ok n, m') := by
  obtain ⟨more, rfl⟩ := Nat.exists_eq_add_of_le enough
  exact drain_add (drain_of_drain run) (drain_of_empty empty more)

end Slices

theorem marked_of_fuel {m m' : Marker} {n : Nat}
    (same : m'.arena.clearMarks = m.arena.clearMarks) (used : m'.fuel + n = m.fuel)
    (empty : m'.pending.entries = []) :
    n + m.arena.marked = m.pending.toList.length + m'.arena.marked := by
  have before := m.arena.marked_add_unmarked
  have after := m'.arena.marked_add_unmarked
  rw [same] at after
  simp only [fuel, MarkStack.size, empty, List.length_nil] at used
  rw [MarkStack.length_toList, MarkStack.size]
  lia

/-- In a heap that can be, with distinct marked blocks on the stack, a drain scans as many blocks as
there were on the stack and have got their mark, each once, and leaves the stack empty. Wherever it
is cut in two, the parts come to the same as the whole. -/
theorem drain_of_reachable {config : Config} {h : Heap} (heap : Heap.Reachable config h)
    {m : Marker} (marking : m.arena.clearMarks = h.arena.clearMarks)
    (distinct : m.pending.toList.Nodup)
    (marked : ∀ x ∈ m.pending.toList, m.arena.Marks x) (ctx : MarkContext) :
    (∃ n m', n < UInt64.size ∧ m.drainAll ctx = (.ok n, m') ∧ m'.pending.toList = [] ∧
        n + m.arena.marked = m.pending.toList.length + m'.arena.marked ∧
        m'.arena.clearMarks = m.arena.clearMarks ∧
        (∀ i k, m.arena.markBit i k = true → m'.arena.markBit i k = true) ∧
        ∀ budget, n ≤ budget → m.drain ctx budget = (.ok n, m') ∧
          (m.drained ctx budget).length = n ∧ (m.drained ctx budget).Nodup ∧
          ∀ x, x ∈ m.drained ctx budget ↔
            x ∈ m.pending.toList ∨ m'.arena.Marks x ∧ ¬ m.arena.Marks x) ∧
      ∀ k l, ∃ a b m₁ m₂, m.drain ctx k = (.ok a, m₁) ∧ m₁.drain ctx l = (.ok b, m₂) ∧
        m.drain ctx (k + l) = (.ok (a + b), m₂) := by
  have seeded : m.Seeded :=
    { sound := sound_congr marking heap.sound
      nodup := (List.reverse_perm _).nodup_iff.1 distinct
      marked := fun x mem => marked x (List.mem_reverse.2 mem) }
  have start : m.arena.Tracing ctx.toSurroundings m.pending.entries m.arena []
      m.pending.entries [] :=
    tracing_start seeded.sound seeded.nodup seeded.marked
  constructor
  · obtain ⟨m', scans, all, empty, -⟩ := drainAll_ok seeded ctx
    have enough : ∀ budget, scans.length ≤ budget →
        m.drain ctx budget = (.ok scans.length, m') ∧ (m.drained ctx budget).length = scans.length ∧
        m'.fuel + scans.length = m.fuel ∧ m.arena.Tracing ctx.toSurroundings m.pending.entries
          m'.arena (m.drained ctx budget) [] [] := by
      intro budget le
      have run := drain_of_le all empty le
      obtain ⟨n, m'', run', count, tracing, left, -⟩ :=
        drain_ok seeded.sound seeded.marked budget start
      obtain ⟨same, rfl⟩ := Prod.mk.inj (run.symm.trans run')
      obtain rfl := Except.ok.inj same
      rw [empty, List.nil_append] at tracing
      exact ⟨run, count, left, tracing⟩
    obtain ⟨-, count, left, tracing⟩ := enough scans.length (Nat.le_refl _)
    have marks := tracing.marked
    have nodup := tracing.nodup
    have traced := tracing.traced
    rw [List.append_nil] at marks nodup traced
    refine ⟨scans.length, m', ?_, all, ?_, ?_, marks.1, fun i k => ?_, fun budget le => ?_⟩
    · rw [← count]
      exact length_lt_of_starts seeded.sound nodup fun x mem =>
        (traced x mem).starts seeded.marked
    · rw [MarkStack.toList, empty, List.reverse_nil]
    · exact marked_of_fuel marks.1 left empty
    · exact fun bit => (marks.2 i k).2 (.inl bit)
    · obtain ⟨run, count, -, tracing⟩ := enough budget le
      have nodup := tracing.nodup
      rw [List.append_nil] at nodup
      refine ⟨run, count, nodup, fun x => ?_⟩
      rw [tracing.mem_scans_iff_marks, MarkStack.toList, List.mem_reverse]
  · intro k l
    obtain ⟨a, m₁, first, -, tracing, -⟩ := drain_ok seeded.sound seeded.marked k start
    obtain ⟨b, m₂, second, -⟩ := drain_ok seeded.sound seeded.marked l tracing
    exact ⟨a, b, m₁, m₂, first, second, drain_add first second⟩

theorem drain_of_reachable_sample :
    let m := Pool.sampleStart
    m.arena.clearMarks = Heap.sample.arena.clearMarks ∧ m.pending.toList = [65536, 69632] ∧
      (∀ x ∈ m.pending.toList, m.arena.Marks x) ∧
      ∃ m' a b m₁, m.drainAll Embedding.sample.toMarkContext = (.ok 3, m') ∧
        m'.pending.toList = [] ∧ 3 + m.arena.marked = 2 + m'.arena.marked ∧
        m.drain Embedding.sample.toMarkContext 1 = (.ok a, m₁) ∧
        m₁.drain Embedding.sample.toMarkContext 2 = (.ok b, m') := by
  intro m
  obtain ⟨seeded, same⟩ := Pool.seeded_sampleStart
  have pending : m.pending.toList = [65536, 69632] := by decide +kernel
  have marked : ∀ x ∈ m.pending.toList, m.arena.Marks x := fun x mem =>
    seeded.marked x (List.mem_reverse.1 mem)
  obtain ⟨⟨n, m', -, all, empty, sum, -, -, enough⟩, slices⟩ :=
    drain_of_reachable Heap.reachable_sample same (by rw [pending]; decide) marked
      Embedding.sample.toMarkContext
  have three : (m.drainAll Embedding.sample.toMarkContext).1 = .ok 3 := by decide +kernel
  obtain rfl : n = 3 := Except.ok.inj ((congrArg Prod.fst all).symm.trans three)
  obtain ⟨a, b, m₁, m₂, first, second, whole⟩ := slices 1 2
  obtain ⟨-, rfl⟩ := Prod.mk.inj (whole.symm.trans (enough 3 (Nat.le_refl 3)).1)
  rw [pending] at sum
  exact ⟨same, pending, marked, m₂, a, b, m₁, all, empty, sum, first, second⟩

end Marker

end MarkSweep
