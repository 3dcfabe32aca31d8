import MarkSweep.Proofs.MarkBits

set_option autoImplicit false

/-!
# Tracing

What a mark phase has done at any time between two accesses to the heap, no matter how its work is
spread over threads: some blocks were scanned, some wait for their scan, and some words of scanned
blocks are still in somebody's hands. When nothing waits and no word is in hand, the scanned blocks
are the ones that the seeds lead to, so every way of tracing ends alike.
-/

namespace MarkSweep

namespace Arena

/-- Whether a word names an allocated block without a mark. -/
def Leads (a : Arena) (w : UInt64) : Prop := w ≠ 0 ∧ a.Starts w.toNat ∧ ¬ a.Marks w.toNat

/-- The blocks that some seeds lead to through blocks without a mark. -/
inductive Traced (around : Surroundings) (a : Arena) (seeds : List Addr) : Addr → Prop
  | seed {x : Addr} (mem : x ∈ seeds) : Traced around a seeds x
  | follow {x : Addr} {words : List UInt64} {w : UInt64} (before : Traced around a seeds x)
      (scanned : a.references around x = .ok words) (mem : w ∈ words) (leads : a.Leads w) :
      Traced around a seeds w.toNat

/-- What has become of an arena while it is traced from some seeds. -/
structure Tracing (around : Surroundings) (a : Arena) (seeds : List Addr) (b : Arena)
    (scans waiting : List Addr) (hands : List UInt64) : Prop where
  marked : a.MarkedAt (scans ++ waiting) b
  nodup : (scans ++ waiting).Nodup
  seeded : ∀ x ∈ seeds, x ∈ scans ++ waiting
  traced : ∀ x ∈ scans ++ waiting, a.Traced around seeds x
  followed : ∀ x ∈ scans, ∀ words, a.references around x = .ok words →
    ∀ w ∈ words, a.Leads w → w ∈ hands ∨ w.toNat ∈ scans ++ waiting
  held : ∀ w ∈ hands, a.Leads w → a.Traced around seeds w.toNat

section References

variable {around : Surroundings} {a : Arena} {x : Addr}

theorem references_of_places (sound : a.Sound) {i k : Nat} (place : a.Places x i k) :
    ∃ s, a.slabs[i]? = some s ∧ s.isAllocated k = true ∧ s.page.blockAddr k = x ∧
      a.references around x = .ok (s.references around x) := by
  obtain ⟨s, hs, allocated, start⟩ := place
  have inside := contains_blockAddr sound hs allocated
  rw [start] at inside
  refine ⟨s, hs, allocated, start, ?_⟩
  unfold references
  simp only [(lookup_eq_some sound).2 ⟨i, s, hs, rfl, inside⟩, slab?_eq_some sound hs]

theorem exists_references (around : Surroundings) (sound : a.Sound) (starts : a.Starts x) :
    ∃ words, a.references around x = .ok words := by
  obtain ⟨i, k, place⟩ := starts
  obtain ⟨s, -, -, -, found⟩ := references_of_places sound place
  exact ⟨_, found⟩

end References

section Tracing

variable {around : Surroundings} {a b : Arena} {seeds scans waiting : List Addr}
  {hands : List UInt64}

theorem Traced.starts (marked : ∀ x ∈ seeds, a.Marks x) {x : Addr}
    (traced : a.Traced around seeds x) : a.Starts x := by
  cases traced with
  | seed mem =>
    obtain ⟨i, k, place, -⟩ := marked x mem
    exact ⟨i, k, place⟩
  | follow before scanned mem leads => exact leads.2.1

theorem tracing_start (sound : a.Sound) (nodup : seeds.Nodup) (marked : ∀ x ∈ seeds, a.Marks x) :
    a.Tracing around seeds a [] seeds [] where
  marked := markedAt_of_marks sound marked
  nodup := nodup
  seeded := fun x hx => hx
  traced := fun x hx => .seed hx
  followed := by simp
  held := by simp

/-- It does not matter in which order entries wait and words are held, nor by whom. -/
theorem Tracing.congr (tracing : a.Tracing around seeds b scans waiting hands)
    {waiting' : List Addr} {hands' : List UInt64} (entries : waiting.Perm waiting')
    (words : ∀ w, w ∈ hands ↔ w ∈ hands') : a.Tracing around seeds b scans waiting' hands' := by
  have all : (scans ++ waiting).Perm (scans ++ waiting') := entries.append_left scans
  have same : ∀ x, x ∈ scans ++ waiting ↔ x ∈ scans ++ waiting' := fun x => all.mem_iff
  refine ⟨tracing.marked.congr same, all.nodup_iff.1 tracing.nodup, ?_, ?_, ?_, ?_⟩
  · intro x hx
    exact (same x).1 (tracing.seeded x hx)
  · intro x hx
    exact tracing.traced x ((same x).2 hx)
  · intro x hx ws scanned w hw leads
    rw [← words, ← same]
    exact tracing.followed x hx ws scanned w hw leads
  · intro w hw
    exact tracing.held w ((words w).2 hw)

theorem Tracing.take {x : Addr} (tracing : a.Tracing around seeds b scans (x :: waiting) hands)
    {words : List UInt64} (scanned : a.references around x = .ok words) :
    a.Tracing around seeds b (scans ++ [x]) waiting (words ++ hands) := by
  have same : scans ++ [x] ++ waiting = scans ++ x :: waiting := by simp
  refine ⟨same ▸ tracing.marked, same ▸ tracing.nodup, same ▸ tracing.seeded,
    same ▸ tracing.traced, ?_, ?_⟩
  · intro y hy ws refs w hw leads
    rw [same, List.mem_append]
    obtain hy | hy := List.mem_append.1 hy
    · exact (tracing.followed y hy ws refs w hw leads).imp_left .inr
    · obtain rfl := List.mem_singleton.1 hy
      obtain rfl := Except.ok.inj (scanned.symm.trans refs)
      exact .inl (.inl hw)
  · intro w hw leads
    obtain hw | hw := List.mem_append.1 hw
    · have waits : x ∈ scans ++ x :: waiting := List.mem_append_right _ List.mem_cons_self
      exact .follow (tracing.traced x waits) scanned hw leads
    · exact tracing.held w hw leads

theorem Tracing.drop {w : UInt64} (tracing : a.Tracing around seeds b scans waiting (w :: hands))
    (done : a.Leads w → w.toNat ∈ scans ++ waiting) :
    a.Tracing around seeds b scans waiting hands where
  marked := tracing.marked
  nodup := tracing.nodup
  seeded := tracing.seeded
  traced := tracing.traced
  followed := by
    intro x hx ws scanned v hv leads
    obtain h | h := tracing.followed x hx ws scanned v hv leads
    · obtain rfl | h := List.mem_cons.1 h
      · exact .inr (done leads)
      · exact .inl h
    · exact .inr h
  held := fun v hv => tracing.held v (List.mem_cons_of_mem w hv)

theorem Tracing.find {w : UInt64} {c : Arena}
    (tracing : a.Tracing around seeds b scans waiting (w :: hands)) (leads : a.Leads w)
    (new : w.toNat ∉ scans ++ waiting) (marked : a.MarkedAt (w.toNat :: (scans ++ waiting)) c) :
    a.Tracing around seeds c scans (w.toNat :: waiting) hands := by
  have all : (w.toNat :: (scans ++ waiting)).Perm (scans ++ w.toNat :: waiting) :=
    List.perm_middle.symm
  refine ⟨marked.congr fun x => all.mem_iff, all.nodup_iff.1 (List.nodup_cons.2
    ⟨new, tracing.nodup⟩), ?_, ?_, ?_, ?_⟩
  · intro x hx
    exact all.mem_iff.1 (List.mem_cons_of_mem _ (tracing.seeded x hx))
  · intro x hx
    obtain rfl | hx := List.mem_cons.1 (all.mem_iff.2 hx)
    · exact tracing.held w List.mem_cons_self leads
    · exact tracing.traced x hx
  · intro x hx ws scanned v hv leads'
    rw [← all.mem_iff, List.mem_cons]
    obtain h | h := tracing.followed x hx ws scanned v hv leads'
    · obtain rfl | h := List.mem_cons.1 h
      · exact .inr (.inl rfl)
      · exact .inl h
    · exact .inr (.inr h)
  · exact fun v hv => tracing.held v (List.mem_cons_of_mem w hv)

theorem Tracing.mem_scans_iff (tracing : a.Tracing around seeds b scans [] []) {x : Addr} :
    x ∈ scans ↔ a.Traced around seeds x := by
  constructor
  · intro hx
    exact tracing.traced x (List.mem_append_left _ hx)
  · intro traced
    induction traced with
    | seed mem => simpa using tracing.seeded _ mem
    | follow before scanned mem leads ih =>
      obtain h | h := tracing.followed _ ih _ scanned _ mem leads
      · simp at h
      · simpa using h

/-- All ways of tracing from the same seeds end alike. -/
theorem Tracing.unique {c : Arena} {scans' : List Addr}
    (one : a.Tracing around seeds b scans [] []) (other : a.Tracing around seeds c scans' [] []) :
    b = c ∧ scans.Perm scans' := by
  have same : ∀ x, x ∈ scans ↔ x ∈ scans' := fun x =>
    one.mem_scans_iff.trans other.mem_scans_iff.symm
  refine ⟨?_, ?_⟩
  · have marked := one.marked
    rw [List.append_nil] at marked
    have marked' := other.marked
    rw [List.append_nil] at marked'
    exact (marked.congr same).unique marked'
  · have nodup := one.nodup
    rw [List.append_nil] at nodup
    have nodup' := other.nodup
    rw [List.append_nil] at nodup'
    exact (List.perm_ext_iff_of_nodup nodup nodup').2 same

end Tracing

end Arena

namespace Marker

open Arena

variable {around : Surroundings} {a : Arena} {seeds scans waiting : List Addr}
  {hands : List UInt64} {m : Marker}

theorem markExact_of_tracing (sound : a.Sound) {w : UInt64} (nonzero : w ≠ 0)
    (tracing : a.Tracing around seeds m.arena scans waiting (w :: hands)) :
    m.markExact w.toNat = (false, m) ∧
        a.Tracing around seeds m.arena scans waiting hands ∨
      ∃ b, m.markExact w.toNat = (true, { arena := b, pending := m.pending.push w.toNat }) ∧
        a.Tracing around seeds b scans (w.toNat :: waiting) hands := by
  obtain ⟨step, known⟩ | ⟨starts, unmarked, new, b, step, marked⟩ :=
    markExact_cases sound tracing.marked w.toNat
  · exact .inl ⟨step, tracing.drop fun leads => known leads.2.1 leads.2.2⟩
  · exact .inr ⟨b, step, tracing.find ⟨nonzero, starts, unmarked⟩ new marked⟩

end Marker

end MarkSweep
