import MarkSweep.Proofs.MarkDrain
import MarkSweep.Proofs.PoolOrder

set_option autoImplicit false

/-!
# Tracing by a pool

A run of a pool is doomed once somebody has failed in it: it will not return a count. While it is
not doomed, whatever the leader, the workers and the surplus hold together makes up one tracing of
the heap, and every scan was counted once.
-/

namespace MarkSweep

/-- Whether a worker has failed, and has not left its failure to the leader, or is lost. -/
def WorkerStage.HasFailed : WorkerStage → Prop
  | .closing (some _) | .failing _ | .recording _ | .lost => True
  | _ => False

def LeaderStage.HasFailed : LeaderStage → Prop
  | .ending (.error _) | .settling (.error _) | .stirring (.error _) | .reporting (.error _)
  | .resting (some (.error _)) => True
  | _ => False

def LeaderStage.IsOver : LeaderStage → Prop
  | .ending (.ok _) | .settling (.ok _) | .stirring (.ok _) | .reporting (.ok _)
  | .resting (some (.ok _)) => True
  | _ => False

/-- Whether the leader has found its stack empty. -/
def LeaderStage.IsDry : LeaderStage → Prop
  | .refilling _ | .counting => True
  | stage => stage.IsOver

/-- Whether the leader counts right: its own scans at first, and in the end those of all. -/
def LeaderStage.Counts (own all : Nat) : LeaderStage → Prop
  | .ending (.ok n) | .settling (.ok n) | .stirring (.ok n) | .reporting (.ok n) => n = own
  | .resting (some (.ok n)) => n = all
  | _ => True

namespace Worker

def load (w : Worker) : List Addr := w.scanner.pending.entries ++ w.inbox.flatten

/-- The scans of a worker that it has not added to the count. -/
def uncounted (w : Worker) : Nat := if w.stage = .leaving then 0 else w.scanner.scanned

/-- Whether a worker keeps no work that it is about to forget. -/
structure OnTrack (w : Worker) : Prop where
  words : w.stage ≠ .scanning → w.scanner.words = []
  empty : w.stage = .refilling ∨ w.stage = .closing none ∨ w.stage = .leaving →
    w.scanner.pending.entries = []

end Worker

namespace Pool

/-- Whether the run under way cannot return a count any more. -/
def Doomed (p : Pool) : Prop :=
  p.failure.isSome = true ∨ p.leader.HasFailed ∨
    ∃ (i : Nat) (w : Worker), p.workers[i]? = some w ∧ w.stage.HasFailed

def load (p : Pool) : List Addr :=
  p.scanner.pending.entries ++ (p.surplus ++ p.workers.toList.flatMap Worker.load)

def hands (p : Pool) : List UInt64 := p.scanner.words ++ p.workers.toList.flatMap (·.scanner.words)

/-- Whether the run under way is still what it should be. -/
structure OnTrack (p : Pool) : Prop where
  tracing : p.start.arena.Tracing p.around p.start.pending.entries p.arena p.scans p.load p.hands
  counted : p.scanner.scanned + p.scanned + total Worker.uncounted p.workers.toList = p.scans.length
  calm : p.cancelled = false
  faultless : p.faults = []
  worker : ∀ (i : Nat) w, p.workers[i]? = some w → w.OnTrack
  words : p.leader ≠ .scanning → p.scanner.words = []
  dry : p.leader.IsDry → p.scanner.pending.entries = []
  quiet : p.leader.IsOver → p.AllIdle ∧ p.surplus = []
  counts : p.leader.Counts p.scanner.scanned p.scans.length

end Pool

theorem flatMap_set_perm {α β : Type} (g : α → List β) {l : List α} {i : Nat} {a : α}
    (found : l[i]? = some a) :
    ∃ rest, (l.flatMap g).Perm (g a ++ rest) ∧ ∀ b, ((l.set i b).flatMap g).Perm (g b ++ rest) := by
  obtain ⟨bound, here⟩ := List.getElem?_eq_some_iff.1 found
  have parts : ∀ b, ((l.set i b).flatMap g).Perm
      (g b ++ ((l.take i).flatMap g ++ (l.drop (i + 1)).flatMap g)) := by
    intro b
    rw [List.set_eq_take_append_cons_drop, if_pos bound, List.flatMap_append, List.flatMap_cons]
    exact List.perm_append_comm_assoc _ _ _
  have same : l.set i a = l := by rw [← here, List.set_getElem_self]
  have before := parts a
  rw [same] at before
  exact ⟨_, before, parts⟩

theorem regroup_perm {A S F W R : List Addr} (parts : F.Perm (W ++ R)) :
    (A ++ (S ++ F)).Perm (W ++ (S ++ (R ++ A))) := by
  rw [List.perm_iff_count] at parts ⊢
  intro x
  have := parts x
  simp only [List.count_append] at this ⊢
  omega

theorem LeaderStage.counts_of_not_isOver {stage : LeaderStage} (going : ¬ stage.IsOver)
    {own all : Nat} : stage.Counts own all := by
  unfold IsOver at going
  unfold Counts
  split <;> simp_all

namespace Scanner

open Arena

theorem exists_next {s : Scanner} (words : s.words = []) (working : s.isPaused = false) :
    ∃ x rest budget, s.next? = some x ∧ s.pending.entries = x :: rest ∧ s.budget = budget + 1 := by
  have taken : s.next?.isNone = false := by simpa [isPaused, words] using working
  obtain ⟨x, next⟩ := Option.isSome_iff_exists.1 (Option.isNone_eq_false_iff.1 taken)
  have both := next
  simp only [next?, words, List.isEmpty_nil, Bool.true_and] at both
  split at both
  · next positive =>
    obtain ⟨rest, entries⟩ := List.head?_eq_some_iff.1 both
    exact ⟨x, rest, s.budget - 1, next, entries, by have := of_decide_eq_true positive; omega⟩
  · simp at both

/-- One step of a scanner is one step of the tracing that it takes part in. -/
theorem tracing_advance {around : Surroundings} {a b c : Arena}
    {seeds scans waiting : List Addr} {hands : List UInt64} (sound : a.Sound)
    (marked : ∀ x ∈ seeds, a.Marks x) {s t : Scanner} {grows : Bool}
    (tracing : a.Tracing around seeds b scans (s.pending.entries ++ waiting) (s.words ++ hands))
    (working : s.isPaused = false) (advanced : s.advance around grows b = (.ok t, c)) :
    a.Tracing around seeds c (scans ++ s.next?.toList) (t.pending.entries ++ waiting)
      (t.words ++ hands) := by
  cases words : s.words with
  | nil =>
    obtain ⟨x, rest, budget, next, entries, some_left⟩ := exists_next words working
    rw [entries] at tracing
    have waits : x ∈ scans ++ (x :: rest ++ waiting) := by simp
    obtain ⟨refs, scanned⟩ := exists_references around sound
      ((tracing.traced x waits).starts marked)
    have scanned' := (references_congr tracing.marked.1 around x).trans scanned
    have pop : s.pending.pop = some (x, ⟨rest⟩) := MarkStack.pop_eq_some_iff.2 entries
    simp only [advance, words, some_left, pop, scanned', Prod.mk.injEq, Except.ok.injEq] at advanced
    obtain ⟨rfl, rfl⟩ := advanced
    rw [words, List.nil_append] at tracing
    rw [next]
    exact tracing.take scanned
  | cons w rest =>
    have next : s.next? = none := by simp [next?, words]
    rw [words] at tracing
    rw [next]
    simp only [Option.toList_none, List.append_nil]
    simp only [advance, words] at advanced
    by_cases zero : w = 0
    · rw [if_pos zero, Prod.mk.injEq, Except.ok.injEq] at advanced
      obtain ⟨rfl, rfl⟩ := advanced
      exact tracing.drop fun leads => absurd zero leads.1
    · rw [if_neg zero] at advanced
      obtain ⟨step, tracing'⟩ | ⟨d, step, tracing'⟩ :=
        Marker.markExact_of_tracing (m := { arena := b, pending := s.pending }) sound zero tracing
      · simp only [step, Prod.mk.injEq, Except.ok.injEq] at advanced
        obtain ⟨rfl, rfl⟩ := advanced
        exact tracing'
      · simp only [step] at advanced
        split at advanced
        · simp only [Prod.mk.injEq, Except.ok.injEq] at advanced
          obtain ⟨rfl, rfl⟩ := advanced
          exact tracing'
        · simp at advanced

theorem scanned_advance {around : Surroundings} {b c : Arena} {s t : Scanner} {grows : Bool}
    (working : s.isPaused = false) (advanced : s.advance around grows b = (.ok t, c)) :
    t.scanned = s.scanned + s.next?.toList.length := by
  cases words : s.words with
  | nil =>
    obtain ⟨x, rest, budget, next, entries, some_left⟩ := exists_next words working
    have pop : s.pending.pop = some (x, ⟨rest⟩) := MarkStack.pop_eq_some_iff.2 entries
    rw [next]
    cases refs : b.references around x with
    | error e => simp [advance, words, some_left, pop, refs] at advanced
    | ok found =>
      simp only [advance, words, some_left, pop, refs, Prod.mk.injEq, Except.ok.injEq] at advanced
      obtain ⟨rfl, -⟩ := advanced
      rfl
  | cons w rest =>
    have next : s.next? = none := by simp [next?, words]
    rw [next]
    simp only [advance, words] at advanced
    split at advanced
    · rw [← Except.ok.inj (Prod.mk.inj advanced).1]
      rfl
    · split at advanced
      · split at advanced
        · rw [← Except.ok.inj (Prod.mk.inj advanced).1]
          rfl
        · simp at advanced
      · rw [← Except.ok.inj (Prod.mk.inj advanced).1]
        rfl

theorem clearMarks_advance (around : Surroundings) (grows : Bool) (a : Arena) (s : Scanner) :
    (s.advance around grows a).2.clearMarks = a.clearMarks := by
  unfold advance
  cases s.words with
  | nil =>
    simp only
    split
    · split <;> rfl
    · rfl
  | cons w words =>
    simp only
    split
    · rfl
    · have same := Marker.clearMarks_markExact w.toNat { arena := a, pending := s.pending }
      cases step : ({ arena := a, pending := s.pending } : Marker).markExact w.toNat with
      | mk won m =>
        rw [step] at same
        cases won with
        | false => exact same
        | true => cases grows <;> exact same

end Scanner

namespace Pool

open Arena

section Workers

variable {p q : Pool} {i : Nat} {w : Worker} {grows : Bool}

theorem doomed_put {r : Pool} {v : Worker} (found : p.workers[i]? = some w) (doomed : p.Doomed)
    (workers : r.workers = p.workers) (leader : r.leader = p.leader)
    (failure : p.failure.isSome = true → r.failure.isSome = true)
    (failed : w.stage.HasFailed → v.stage.HasFailed ∨ r.failure.isSome = true) :
    (r.put i v).Doomed := by
  have get : ∀ j, (r.put i v).workers[j]? = if i = j then some v else p.workers[j]? := by
    intro j
    rw [getElem?_put (workers ▸ found) v j, workers]
  obtain h | h | ⟨j, u, hu, h⟩ := doomed
  · exact .inl (failure h)
  · exact .inr (.inl (leader ▸ h))
  · by_cases same : i = j
    · subst same
      obtain rfl := Option.some.inj (found.symm.trans hu)
      obtain h | h := failed h
      · exact .inr (.inr ⟨i, v, by rw [get, if_pos rfl], h⟩)
      · exact .inl h
    · exact .inr (.inr ⟨j, u, by rw [get, if_neg same]; exact hu, h⟩)

theorem doomed_of_put {r : Pool} {v : Worker} (found : r.workers[i]? = some w)
    (failed : v.stage.HasFailed) : (r.put i v).Doomed :=
  .inr (.inr ⟨i, v, by rw [getElem?_put found, if_pos rfl], failed⟩)

theorem doomed_workerTurn (found : p.workers[i]? = some w) (doomed : p.Doomed)
    (turn : p.WorkerTurn grows i w q) : q.Doomed := by
  cases turn with
  | records stage =>
    have recorded : ∀ e, (p.failure <|> some e).isSome = true := by
      intro e
      cases p.failure <;> rfl
    exact doomed_put found doomed rfl rfl (fun _ => recorded _) fun _ => .inr (recorded _)
  | counts stage =>
    refine doomed_put found doomed rfl rfl (fun h => h) fun failed => .inl ?_
    rw [stage] at failed
    cases ‹Option Error› with
    | none => exact failed.elim
    | some e => trivial
  | cancels stage => exact doomed_put found doomed rfl rfl (fun h => h) fun _ => .inl trivial
  | receives stage | stops stage | resumes stage | dries stage | pauses stage | scans stage
  | fails stage | ends stage | refills stage | overflows e stage | declines stage
  | seesLeader stage | doubts stage | seesNobody stage | seesWorker stage | offers stage
  | leaves stage =>
    refine doomed_put found doomed rfl rfl (fun h => h) fun failed => ?_
    rw [stage] at failed
    exact failed.elim

theorem onTrack_put (track : p.OnTrack) (found : p.workers[i]? = some w) (busy : ¬ w.IsIdle)
    {v : Worker} {arena : Arena} {scans surplus : List Addr} {scanned : Nat} {active : UInt64}
    (sound : v.OnTrack)
    (tracing : ∀ rest hands,
      p.start.arena.Tracing p.around p.start.pending.entries p.arena p.scans
        (w.load ++ (p.surplus ++ rest)) (w.scanner.words ++ hands) →
      p.start.arena.Tracing p.around p.start.pending.entries arena scans
        (v.load ++ (surplus ++ rest)) (v.scanner.words ++ hands))
    (counted : scanned + v.uncounted + p.scans.length = p.scanned + w.uncounted + scans.length) :
    (put i v { p with arena, scans, surplus, scanned, active }).OnTrack := by
  have found' : p.workers.toList[i]? = some w := by simpa using found
  have get := getElem?_put (p := { p with arena, scans, surplus, scanned, active }) found v
  have not_all : ¬ p.AllIdle := fun h => busy (h i w found)
  -- The leader has not ended the run while this worker had something to do.
  have not_over : ¬ p.leader.IsOver := fun h => not_all (track.quiet h).1
  have workers : (put i v { p with arena, scans, surplus, scanned, active }).workers.toList =
      p.workers.toList.set i v := Array.toList_setIfInBounds
  constructor
  · obtain ⟨rest, load, loaded⟩ := flatMap_set_perm Worker.load found'
    obtain ⟨others, words, followed⟩ := flatMap_set_perm (fun w : Worker => w.scanner.words) found'
    have before : p.start.arena.Tracing p.around p.start.pending.entries p.arena p.scans
        (w.load ++ (p.surplus ++ (rest ++ p.scanner.pending.entries)))
        (w.scanner.words ++ (others ++ p.scanner.words)) := by
      refine track.tracing.congr (regroup_perm load) fun x => ?_
      have := words.mem_iff (a := x)
      simp only [hands, List.mem_append, this]
      tauto
    refine (tracing _ _ before).congr ?_ fun x => ?_
    · simp only [Pool.load, workers]
      exact (regroup_perm (loaded v)).symm
    · have := (followed v).mem_iff (a := x)
      simp only [hands, workers, List.mem_append, this]
      tauto
  · have sum := total_set Worker.uncounted found' v
    have before := track.counted
    rw [workers]
    change p.scanner.scanned + scanned + _ = scans.length
    omega
  · exact track.calm
  · exact track.faultless
  · intro j u hu
    rw [get] at hu
    split at hu
    · obtain rfl := Option.some.inj hu
      exact sound
    · exact track.worker j u hu
  · exact track.words
  · exact track.dry
  · exact fun h => absurd h not_over
  · exact LeaderStage.counts_of_not_isOver not_over

theorem onTrack_workerTurn (order : p.Orderly) (sound : p.start.arena.Sound)
    (marked : ∀ x ∈ p.start.pending.entries, p.start.arena.Marks x) (track : p.OnTrack)
    (found : p.workers[i]? = some w) (turn : p.WorkerTurn grows i w q) : q.Doomed ∨ q.OnTrack := by
  obtain ⟨rested, idle⟩ := order.worker i w found
  obtain ⟨words, empty⟩ := track.worker i w found
  have at_work : w.stage ≠ .resting → ¬ w.IsIdle := fun h idle => h idle.1
  have paused_words : w.scanner.isPaused = true → w.scanner.words = [] := fun paused =>
    List.isEmpty_iff.1 (Bool.and_eq_true_iff.1 paused).1
  cases turn with
  | receives stage shares =>
    have share : ¬ w.IsIdle := fun idle => by simp [idle.2] at shares
    have blank := (rested stage).1
    refine .inr (onTrack_put track found share ⟨fun _ => rfl, by simp⟩ ?_ ?_)
    · intro rest hands tracing
      simp only [Worker.load, blank, shares, List.flatten_cons] at tracing
      refine tracing.congr (List.perm_iff_count.2 fun x => ?_) fun x => Iff.rfl
      simp only [Worker.load, MarkStack.ofList, List.count_append, List.count_reverse,
        List.count_nil]
      omega
    · simp [Worker.uncounted, blank, stage]
  | stops stage cancelled => simp [track.calm] at cancelled
  | resumes stage =>
    have resting : w.stage ≠ .resting := by simp [stage]
    refine .inr (onTrack_put track found (at_work resting) ⟨by simp, by simp⟩ ?_ ?_)
    · exact fun rest hands tracing => tracing
    · simp [Worker.uncounted, stage]
  | dries stage paused none_left =>
    have resting : w.stage ≠ .resting := by simp [stage]
    refine .inr (onTrack_put track found (at_work resting)
      ⟨fun _ => paused_words paused, fun _ => ?_⟩ ?_ ?_)
    · exact List.isEmpty_iff.1 none_left
    · exact fun rest hands tracing => tracing
    · simp [Worker.uncounted, stage]
  | pauses stage paused =>
    have resting : w.stage ≠ .resting := by simp [stage]
    refine .inr (onTrack_put track found (at_work resting) ⟨fun _ => paused_words paused, by simp⟩
      ?_ ?_)
    · exact fun rest hands tracing => tracing
    · simp [Worker.uncounted, stage]
  | scans stage working advanced =>
    have resting : w.stage ≠ .resting := by simp [stage]
    refine .inr (onTrack_put track found (at_work resting)
      ⟨fun h => absurd stage h, by simp [stage]⟩ ?_ ?_)
    · intro rest hands tracing
      rw [Worker.load, List.append_assoc] at tracing ⊢
      exact Scanner.tracing_advance sound marked tracing working advanced
    · have counted := Scanner.scanned_advance working advanced
      simp only [Worker.uncounted, stage, List.length_append, counted]
      simp only [reduceCtorEq, if_false]
      omega
  | fails stage => exact .inl (doomed_of_put (by exact found) trivial)
  | ends stage nothing =>
    have resting : w.stage ≠ .resting := by simp [stage]
    refine .inr (onTrack_put track found (at_work resting)
      ⟨fun _ => words (by simp [stage]), fun _ => empty (.inl stage)⟩ ?_ ?_)
    · exact fun rest hands tracing => tracing
    · simp [Worker.uncounted, stage]
  | refills stage =>
    have resting : w.stage ≠ .resting := by simp [stage]
    refine .inr (onTrack_put track found (at_work resting)
      ⟨fun _ => words (by simp [stage]), by simp⟩ ?_ ?_)
    · intro rest hands tracing
      refine tracing.congr (List.perm_iff_count.2 fun x => ?_) fun x => Iff.rfl
      simp only [Worker.load, MarkStack.extend, List.count_append, List.count_reverse,
        List.count_nil]
      omega
    · simp [Worker.uncounted, stage]
  | overflows e stage => exact .inl (doomed_of_put (by exact found) trivial)
  | declines stage | seesLeader stage | doubts stage | seesNobody stage | seesWorker stage =>
    have resting : w.stage ≠ .resting := by simp [stage]
    refine .inr (onTrack_put track found (at_work resting)
      ⟨fun _ => words (by simp [stage]), by simp⟩ ?_ ?_)
    · exact fun rest hands tracing => tracing
    · simp [Worker.uncounted, stage]
  | offers stage offered =>
    rename_i someoneRests surplus pending
    have moved := MarkStack.offerSurplus_perm p.minDispatch someoneRests p.surplus w.scanner.pending
    rw [offered] at moved
    have resting : w.stage ≠ .resting := by simp [stage]
    refine .inr (onTrack_put track found (at_work resting)
      ⟨fun _ => words (by simp [stage]), by simp⟩ ?_ ?_)
    · intro rest hands tracing
      refine tracing.congr (List.perm_iff_count.2 fun x => ?_) fun x => Iff.rfl
      have same := List.perm_iff_count.1 moved x
      simp only [MarkStack.toList, List.count_append, List.count_reverse] at same
      simp only [Worker.load, List.count_append]
      omega
    · simp [Worker.uncounted, stage]
  | counts stage =>
    rename_i error
    cases error with
    | some e => exact .inl (doomed_of_put (by exact found) trivial)
    | none =>
      have resting : w.stage ≠ .resting := by simp [stage]
      refine .inr (onTrack_put track found (at_work resting)
        ⟨fun _ => words (by simp [stage]), fun _ => empty (.inr (.inl stage))⟩ ?_ ?_)
      · exact fun rest hands tracing => tracing
      · simp [Worker.uncounted, stage]
  | cancels stage => exact .inl (doomed_of_put (by exact found) trivial)
  | records stage =>
    refine .inl (.inl ?_)
    change (p.failure <|> _).isSome = true
    cases p.failure <;> rfl
  | leaves stage =>
    have resting : w.stage ≠ .resting := by simp [stage]
    refine .inr (onTrack_put track found (at_work resting) ⟨fun _ => rfl, fun _ => rfl⟩ ?_ ?_)
    · intro rest hands tracing
      rw [Worker.load, empty (.inr (.inr stage)), words (by simp [stage])] at tracing
      exact tracing
    · simp [Worker.uncounted, stage]

theorem doomed_lose (taken : p.lose i = some q) : q.Doomed := by
  unfold lose at taken
  cases found : p.workers[i]? with
  | none => simp [found] at taken
  | some w =>
    by_cases resting : w.stage = .resting
    · simp [found, resting] at taken
    · simp only [found, Option.bind_eq_bind, Option.bind_some, if_neg resting] at taken
      obtain rfl := Option.some.inj taken
      rw [modifyWorker_eq_put found]
      exact doomed_of_put found trivial

end Workers

section Leader

variable {p q : Pool} {grows : Bool}

theorem doomed_lead (doomed : p.Doomed) (workers : q.workers = p.workers)
    (failure : p.failure.isSome = true → q.failure.isSome = true ∨ q.leader.HasFailed)
    (failed : p.leader.HasFailed → q.leader.HasFailed) : q.Doomed := by
  obtain h | h | h := doomed
  · obtain h | h := failure h
    · exact .inl h
    · exact .inr (.inl h)
  · exact .inr (.inl (failed h))
  · exact .inr (.inr (workers ▸ h))

theorem doomed_of_leaderFails (e : Error) : (p.leaderFails e).Doomed := .inr (.inl trivial)

theorem Follows.hasFailed {a b : LeaderStage} (follows : p.Follows a b) (failed : a.HasFailed) :
    b.HasFailed := by
  cases follows with
  | @settles result | @waits result | @stirs result =>
    cases result with
    | error e => trivial
    | ok n => exact failed.elim
  | _ => exact failed.elim

theorem doomed_send (order : p.Orderly) (doomed : p.Doomed) {i count : Nat} {rest : List Nat}
    (here : p.leader = .sending (i :: rest) count) :
    ({ p.send grows i count with leader := .sending rest count } : Pool).Doomed := by
  obtain ⟨w, found, idle⟩ := (order.sending _ _ here).2 i List.mem_cons_self
  rw [send_eq found idle]
  obtain h | h | ⟨j, u, hu, h⟩ := doomed
  · exact .inl h
  · rw [here] at h
    exact h.elim
  · have other : i ≠ j := by
      rintro rfl
      obtain rfl := Option.some.inj (found.symm.trans hu)
      rw [idle.1] at h
      exact h
    refine .inr (.inr ⟨j, u, ?_, h⟩)
    simp only [put]
    rw [Array.getElem?_setIfInBounds_ne other]
    exact hu

theorem doomed_leaderTurn (order : p.Orderly) (doomed : p.Doomed)
    (turn : p.LeaderTurn grows q) : q.Doomed := by
  cases turn with
  | follows here follows =>
    exact doomed_lead doomed rfl .inl fun failed => follows.hasFailed (here ▸ failed)
  | sends here => exact doomed_send order doomed here
  | @ends result here =>
    refine doomed_lead doomed rfl .inl fun failed => ?_
    rw [here] at failed
    cases result with
    | error e => trivial
    | ok n => exact failed.elim
  | fails | overflows | misses => exact doomed_of_leaderFails _
  | @despairs i e result here lost =>
    refine .inr (.inl ?_)
    cases result <;> trivial
  | returnsError | returnsFailure => exact .inr (.inl trivial)
  | returns here failure =>
    refine doomed_lead doomed rfl (fun left => ?_) fun failed => ?_
    · rw [failure] at left
      nomatch left
    · rw [here] at failed
      exact failed.elim
  | resumes here | scans here | refills here =>
    refine doomed_lead doomed rfl .inl fun failed => ?_
    rw [here] at failed
    exact failed.elim

theorem onTrack_turn (track : p.OnTrack) (stage : LeaderStage) {leaderRests : Bool}
    (words : p.leader ≠ .scanning) (dry : stage.IsDry → p.scanner.pending.entries = [])
    (quiet : stage.IsOver → p.AllIdle ∧ p.surplus = [])
    (counts : stage.Counts p.scanner.scanned p.scans.length) :
    ({ p with leader := stage, leaderRests } : Pool).OnTrack :=
  ⟨track.tracing, track.counted, track.calm, track.faultless, track.worker,
    fun _ => track.words words, dry, quiet, counts⟩

theorem onTrack_move (track : p.OnTrack) (stage : LeaderStage) {pending : MarkStack}
    {surplus : List Addr} {budget : Nat} (words : p.scanner.words = [])
    (fresh : ¬ stage.IsDry) (going : ¬ stage.IsOver)
    (moved : (p.scanner.pending.entries ++ p.surplus).Perm (pending.entries ++ surplus)) :
    ({ p with
      leader := stage, surplus
      scanner := { p.scanner with pending, budget } } : Pool).OnTrack := by
  refine ⟨track.tracing.congr ?_ fun w => Iff.rfl, track.counted, track.calm, track.faultless,
    track.worker, fun _ => words, fun h => absurd h fresh, fun h => absurd h going,
    LeaderStage.counts_of_not_isOver going⟩
  unfold load
  rw [← List.append_assoc, ← List.append_assoc]
  exact moved.append_right _

theorem onTrack_send (order : p.Orderly) (track : p.OnTrack) {i count : Nat} {rest : List Nat}
    (stage : p.leader = .sending (i :: rest) count) :
    ({ p.send grows i count with leader := .sending rest count } : Pool).OnTrack := by
  obtain ⟨w, found, idle⟩ := (order.sending _ _ stage).2 i List.mem_cons_self
  have batch := MarkStack.toList_takeOldest p.scanner.pending count
  rw [send_eq found idle]
  generalize hv : ({ w with inbox := [(p.scanner.pending.takeOldest count).1] } : Worker) = v
  generalize (p.scanner.pending.takeOldest count).2 = pending at batch
  have found' : p.workers.toList[i]? = some w := by simpa using found
  refine ⟨track.tracing.congr ?_ fun x => ?_, ?_, track.calm, track.faultless, ?_,
    fun _ => track.words (by simp [stage]), fun h => h.elim, fun h => h.elim, trivial⟩
  · obtain ⟨others, load, loaded⟩ := flatMap_set_perm Worker.load found'
    refine List.perm_iff_count.2 fun x => ?_
    have before := List.perm_iff_count.1 load x
    have after := List.perm_iff_count.1 (loaded v) x
    have split := congrArg (List.count x) batch
    simp only [Pool.load, put, Array.toList_setIfInBounds, List.count_append]
    rw [before, after, ← hv]
    simp only [MarkStack.toList, List.count_append, List.count_reverse] at split
    simp only [Worker.load, idle.2, List.count_append, List.flatten_cons, List.flatten_nil,
      List.count_nil]
    omega
  · obtain ⟨others, words, followed⟩ := flatMap_set_perm (fun w : Worker => w.scanner.words) found'
    have before := words.mem_iff (a := x)
    have after := (followed v).mem_iff (a := x)
    have same : v.scanner = w.scanner := by rw [← hv]
    simp only [hands, put, Array.toList_setIfInBounds, List.mem_append, before, after, same]
  · have sum := total_set Worker.uncounted found' v
    have same : v.uncounted = w.uncounted := by rw [← hv]; rfl
    have before := track.counted
    simp only [put, Array.toList_setIfInBounds]
    omega
  · intro j u hu
    have get := getElem?_put found v j
    change (p.put i v).workers[j]? = some u at hu
    rw [get] at hu
    split at hu
    · obtain rfl := Option.some.inj hu
      obtain ⟨words, empty⟩ := track.worker i w found
      rw [← hv]
      exact ⟨words, empty⟩
    · exact track.worker j u hu

section Idle

variable (order : p.Orderly) (idle : p.AllIdle)
include order idle

theorem blank_of_allIdle : ∀ w ∈ p.workers.toList, w.scanner = {} ∧ w.inbox = [] := by
  intro w hw
  obtain ⟨i, found⟩ := List.getElem?_of_mem hw
  rw [Array.getElem?_toList] at found
  exact ⟨((order.worker i w found).rested (idle i w found).1).1, (idle i w found).2⟩

theorem load_of_allIdle : p.load = p.scanner.pending.entries ++ p.surplus := by
  have load : p.workers.toList.flatMap Worker.load = [] := by
    refine List.flatMap_eq_nil_iff.2 fun w hw => ?_
    obtain ⟨scanner, inbox⟩ := blank_of_allIdle order idle w hw
    rw [Worker.load, scanner, inbox]
    rfl
  rw [Pool.load, load, List.append_nil]

theorem hands_of_allIdle : p.hands = p.scanner.words := by
  have words : p.workers.toList.flatMap (fun w => w.scanner.words) = [] := by
    refine List.flatMap_eq_nil_iff.2 fun w hw => ?_
    rw [(blank_of_allIdle order idle w hw).1]
  rw [hands, words, List.append_nil]

theorem waiting_of_allIdle : p.waiting = p.scanner.pending.toList ++ p.surplus := by
  have waiting : (p.workers.toList.flatMap fun w =>
      w.scanner.pending.toList ++ w.inbox.flatten) = [] := by
    refine List.flatMap_eq_nil_iff.2 fun w hw => ?_
    obtain ⟨scanner, inbox⟩ := blank_of_allIdle order idle w hw
    rw [scanner, inbox]
    rfl
  rw [Pool.waiting, waiting, List.append_nil]

theorem uncounted_of_allIdle : total Worker.uncounted p.workers.toList = 0 := by
  have none_left : ∀ w ∈ p.workers.toList, w.uncounted = 0 := by
    intro w hw
    simp [Worker.uncounted, (blank_of_allIdle order idle w hw).1]
  exact (total_congr none_left).trans (total_const 0 _)

end Idle

theorem onTrack_follows (order : p.Orderly) (track : p.OnTrack) {a b : LeaderStage}
    {leaderRests : Bool} (here : p.leader = a) (follows : p.Follows a b) :
    ({ p with leader := b, leaderRests } : Pool).Doomed ∨
      ({ p with leader := b, leaderRests } : Pool).OnTrack := by
  have words := track.words
  have dry := track.dry
  have quiet := track.quiet
  have counts := track.counts
  rw [here] at words dry quiet counts
  cases follows with
  | stops cancelled =>
    rw [track.calm] at cancelled
    nomatch cancelled
  | dries paused empty =>
    have words := List.isEmpty_iff.1 (Bool.and_eq_true_iff.1 paused).1
    exact .inr ⟨track.tracing, track.counted, track.calm, track.faultless, track.worker,
      fun _ => words, fun _ => List.isEmpty_iff.1 empty, fun h => h.elim, trivial⟩
  | pauses paused =>
    have words := List.isEmpty_iff.1 (Bool.and_eq_true_iff.1 paused).1
    exact .inr ⟨track.tracing, track.counted, track.calm, track.faultless, track.worker,
      fun _ => words, fun h => h.elim, fun h => h.elim, trivial⟩
  | ends nothing =>
    have idle := order.quiet (by rw [here]; trivial)
    exact .inr (onTrack_turn track _ (by simp [here]) (fun _ => dry trivial)
      (fun _ => ⟨idle, nothing⟩) rfl)
  | doubts | confirms =>
    exact .inr (onTrack_turn track _ (by simp [here]) (fun _ => dry trivial) (fun h => h.elim)
      trivial)
  | @settles result | @waits result | @stirs result =>
    cases result with
    | error e => exact .inl (.inr (.inl trivial))
    | ok n =>
      exact .inr (onTrack_turn track _ (by simp [here]) (fun _ => dry trivial)
        (fun _ => quiet trivial) counts)
  | skips | deals | finishes | gives | rests | wakes =>
    exact .inr (onTrack_turn track _ (by simp [here]) (fun h => h.elim) (fun h => h.elim) trivial)

theorem onTrack_leaderTurn (order : p.Orderly) (sound : p.start.arena.Sound)
    (marked : ∀ x ∈ p.start.pending.entries, p.start.arena.Marks x) (track : p.OnTrack)
    (turn : p.LeaderTurn grows q) : q.Doomed ∨ q.OnTrack := by
  have words := track.words
  have dry := track.dry
  have quiet := track.quiet
  have counts := track.counts
  cases turn with
  | follows here follows => exact onTrack_follows order track here follows
  | sends here => exact .inr (onTrack_send order track here)
  | resumes here =>
    exact .inr (onTrack_move track .scanning (words (by simp [here])) (fun h => h.elim)
      (fun h => h.elim) (List.Perm.refl _))
  | scans here working advanced =>
    have tracing := track.tracing
    rw [load, hands] at tracing
    have counted := Scanner.scanned_advance working advanced
    have before := track.counted
    refine .inr ⟨Scanner.tracing_advance sound marked tracing working advanced, ?_, track.calm,
      track.faultless, track.worker, fun h => absurd rfl h, fun h => h.elim, fun h => h.elim,
      trivial⟩
    simp only [List.length_append]
    omega
  | @refills nobodyActive here =>
    refine .inr (onTrack_move track _ (words (by simp [here])) ?_ ?_ ?_)
    · cases nobodyActive <;> exact fun h => h.elim
    · cases nobodyActive <;> exact fun h => h.elim
    · have moved := MarkStack.takeSurplus_perm p.surplus p.scanner.pending
      refine List.perm_iff_count.2 fun x => ?_
      have same := List.perm_iff_count.1 moved x
      simp only [MarkStack.toList, MarkStack.takeSurplus, List.count_append, List.count_reverse]
        at same ⊢
      omega
  | fails | overflows | misses => exact .inl (doomed_of_leaderFails _)
  | @ends result here =>
    rw [here] at words dry quiet counts
    cases result with
    | error e => exact .inl (.inr (.inl trivial))
    | ok n =>
      exact .inr ⟨track.tracing, track.counted, by simp [track.calm, Except.isOk, Except.toBool],
        track.faultless, track.worker, fun _ => words (by simp), fun _ => dry trivial,
        fun _ => quiet trivial, counts⟩
  | @despairs i e result here lost =>
    refine .inl (.inr (.inl ?_))
    cases result <;> trivial
  | returnsError | returnsFailure => exact .inl (.inr (.inl trivial))
  | @returns n here failure =>
    rw [here] at words dry quiet counts
    have idle := quiet trivial
    have counted := track.counted
    rw [uncounted_of_allIdle order idle.1, ← show n = p.scanner.scanned from counts] at counted
    exact .inr ⟨track.tracing, track.counted, track.calm, track.faultless, track.worker,
      fun _ => words (by simp), fun _ => dry trivial, fun _ => idle, counted⟩

end Leader

end Pool

end MarkSweep
