import MarkSweep.Proofs.CollectionExactness

set_option autoImplicit false

namespace MarkSweep

namespace Arena

/-- What was scanned are the seeds and the blocks that have got a mark. -/
theorem Tracing.mem_scans_iff_marks {around : Surroundings} {a b : Arena} {seeds scans : List Addr}
    (tracing : a.Tracing around seeds b scans [] []) {x : Addr} :
    x ∈ scans ↔ x ∈ seeds ∨ b.Marks x ∧ ¬ a.Marks x := by
  have marked := tracing.marked
  rw [List.append_nil] at marked
  constructor
  · intro scanned
    cases tracing.mem_scans_iff.1 scanned with
    | seed mem => exact .inl mem
    | follow before found mem leads =>
      obtain ⟨-, starts, unmarked⟩ := leads
      exact .inr ⟨(marked.marks_iff starts).2 (.inr scanned), unmarked⟩
  · rintro (seed | ⟨got, unmarked⟩)
    · simpa using tracing.seeded x seed
    · have starts : a.Starts x := by
        obtain ⟨i, k, place, -⟩ := got
        exact (starts_congr marked.1 x).1 ⟨i, k, place⟩
      exact ((marked.marks_iff starts).1 got).resolve_left unmarked

end Arena

namespace Pool

/-- A run that returns a count agrees with one thread that scans from the same stack in the same
heap. -/
theorem agrees_of_returned {workers interval minDispatch : Nat} {p : Pool} {config : Config}
    {h : Heap} (few : workers ≤ maxMarkThreads)
    (run : Pool.Reachable workers interval minDispatch p) (heap : Heap.Reachable config h)
    (start : p.start.arena.clearMarks = h.arena.clearMarks)
    (distinct : p.start.pending.toList.Nodup)
    (marked : ∀ x ∈ p.start.pending.toList, p.start.arena.Marks x) {n : Nat}
    (returned : p.leader = .resting (some (.ok n))) :
    (∀ ctx : MarkContext, ctx.toSurroundings = p.around →
        ∃ serial, p.start.drainAll ctx = (.ok n, serial) ∧ serial.arena = p.arena) ∧
      p.waiting = [] ∧ p.scans.Nodup ∧
      (∀ x, x ∈ p.scans ↔
        x ∈ p.start.pending.toList ∨ p.arena.Marks x ∧ ¬ p.start.arena.Marks x) ∧
      n = p.scans.length ∧ p.cancelled = false ∧ p.faults = [] ∧ ∀ w ∈ p.workers, w.IsIdle := by
  have seeded : p.start.Seeded :=
    { sound := Arena.sound_congr start heap.sound
      nodup := (List.reverse_perm _).nodup_iff.1 distinct
      marked := fun x mem => marked x (List.mem_reverse.2 mem) }
  obtain ⟨idle, track⟩ := onTrack_of_returned few run seeded returned
  obtain ⟨nothing, count, tracing⟩ := tracing_of_returned few run seeded returned
  refine ⟨fun ctx same => ?_, nothing, ?_, fun x => ?_, count, track.calm, track.faultless,
    fun w mem => ?_⟩
  · obtain ⟨serial, scans, ran, -, alone⟩ := Marker.drainAll_ok seeded ctx
    rw [same] at alone
    obtain ⟨arena, parts⟩ := alone.unique tracing
    exact ⟨serial, by rw [ran, count, parts.length_eq], arena⟩
  · simpa using tracing.nodup
  · rw [tracing.mem_scans_iff_marks]
    unfold MarkStack.toList
    rw [List.mem_reverse]
  · obtain ⟨i, found⟩ := Array.getElem?_of_mem mem
    exact idle i w found

def proceed : List (Option Nat) → Pool → Pool
  | [], p => p
  | none :: rest, p => proceed rest ((p.leaderStep true).getD p)
  | some i :: rest, p => proceed rest ((p.workerStep i true true).getD p)

theorem Continues.trans {p q r : Pool} (one : p.Continues q) (two : q.Continues r) :
    p.Continues r :=
  ⟨two.start.trans one.start, two.around.trans one.around, two.marks.trans one.marks⟩

theorem proceed_spec {workers interval minDispatch : Nat} {p : Pool}
    (run : Pool.Reachable workers interval minDispatch p) (schedule : List (Option Nat)) :
    Pool.Reachable workers interval minDispatch (p.proceed schedule) ∧
      p.Continues (p.proceed schedule) := by
  induction schedule generalizing p with
  | nil => exact ⟨run, rfl, rfl, rfl⟩
  | cons turn rest ih =>
    cases turn with
    | none =>
      cases taken : p.leaderStep true with
      | none =>
        simp only [proceed, taken]
        exact ih run
      | some q =>
        obtain ⟨run', continues⟩ := ih (.step (.leader true) run taken)
        simp only [proceed, taken]
        exact ⟨run', (continues_leaderTurn (leaderTurn_of_leaderStep taken)).trans continues⟩
    | some i =>
      cases taken : p.workerStep i true true with
      | none =>
        simp only [proceed, taken]
        exact ih run
      | some q =>
        obtain ⟨run', continues⟩ := ih (.step (.worker i true true) run taken)
        obtain ⟨w, -, turn⟩ := workerTurn_of_workerStep taken
        simp only [proceed, taken]
        exact ⟨run', (continues_workerTurn turn).trans continues⟩

def sampleStart : Marker :=
  ({ arena := Heap.sample.arena.clearMarks } : Marker).markEach [65536, 69632]

theorem seeded_sampleStart :
    sampleStart.Seeded ∧ sampleStart.arena.clearMarks = Heap.sample.arena.clearMarks := by
  have same := Arena.clearMarks_clearMarks Heap.sample.arena
  have sound := Arena.sound_congr same Heap.reachable_sample.sound
  have nothing : Marker.Finds Heap.sample.arena.clearMarks (fun _ => False)
      { arena := Heap.sample.arena.clearMarks } :=
    ⟨Arena.markedAt_self _, List.nodup_nil, by simp⟩
  have clear := Arena.not_marks_clearMarks Heap.sample.arena
  have finds := Marker.finds_markEach sound clear nothing [65536, 69632]
  refine ⟨finds.seeded sound ?_, finds.marked.1.trans same⟩
  rintro x (h | ⟨-, -, -, starts⟩)
  · exact h.elim
  · exact starts

def sampleRun : Pool :=
  (((Pool.new 1 8 1).begin Embedding.sample.toSurroundings sampleStart).getD
    (Pool.new 1 8 1)).proceed
      ([none, none, none, none, some 0, some 0, none, some 0, none, none, some 0, some 0, none] ++
        List.replicate 15 (some 0) ++ List.replicate 20 none)

def answer? : LeaderStage → Option Nat
  | .resting (some (.ok n)) => some n
  | _ => none

theorem eq_resting_of_answer? {stage : LeaderStage} {n : Nat} (answer : answer? stage = some n) :
    stage = .resting (some (.ok n)) := by
  unfold answer? at answer
  split at answer
  · obtain rfl := Option.some.inj answer
    rfl
  · nomatch answer

theorem agrees_of_returned_sample :
    Pool.Reachable 1 8 1 sampleRun ∧ sampleRun.leader = .resting (some (.ok 3)) ∧
      sampleRun.start.pending.toList = [65536, 69632] ∧
      (∀ ctx : MarkContext, ctx.toSurroundings = sampleRun.around →
        ∃ serial, sampleRun.start.drainAll ctx = (.ok 3, serial) ∧
          serial.arena = sampleRun.arena) ∧
      sampleRun.waiting = [] ∧ sampleRun.scans.Nodup ∧
      (∀ x, x ∈ sampleRun.scans ↔ x ∈ sampleRun.start.pending.toList ∨
        sampleRun.arena.Marks x ∧ ¬ sampleRun.start.arena.Marks x) ∧
      3 = sampleRun.scans.length ∧ sampleRun.cancelled = false ∧ sampleRun.faults = [] ∧
      ∀ w ∈ sampleRun.workers, w.IsIdle := by
  have begun : Pool.Reachable 1 8 1 (((Pool.new 1 8 1).begin Embedding.sample.toSurroundings
      sampleStart).getD (Pool.new 1 8 1)) :=
    .step (.begin _ _) .new rfl
  obtain ⟨run, continues⟩ : Pool.Reachable 1 8 1 sampleRun ∧ Pool.Continues _ sampleRun :=
    proceed_spec begun _
  have start : sampleRun.start = sampleStart := continues.start
  obtain ⟨seeded, same⟩ := seeded_sampleStart
  rw [← start] at seeded same
  have returned : sampleRun.leader = .resting (some (.ok 3)) :=
    eq_resting_of_answer? (by decide +kernel)
  have pending : sampleRun.start.pending.toList = [65536, 69632] := by decide +kernel
  refine ⟨run, returned, pending, agrees_of_returned (by decide) run Heap.reachable_sample same
    (by rw [pending]; decide) (fun x mem => ?_) returned⟩
  exact seeded.marked x (List.mem_reverse.1 mem)

end Pool

end MarkSweep
