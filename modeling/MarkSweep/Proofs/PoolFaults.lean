import MarkSweep.Proofs.HeapInvariant

set_option autoImplicit false

namespace MarkSweep

def WorkerStage.fault? : WorkerStage → Option Error
  | .closing found => found
  | .failing e | .recording e => some e
  | _ => none

def LeaderStage.error? : LeaderStage → Option Error
  | .ending (.error e) | .settling (.error e) | .stirring (.error e) | .reporting (.error e) =>
    some e
  | _ => none

namespace Pool

/-- Whether a pool is in the run that has just begun in another one. -/
inductive During (b : Pool) : Pool → Prop
  | begun : During b b
  | step {p q : Pool} (action : Action) (same : ∀ around m, action ≠ .begin around m)
      (before : During b p) (taken : p.step action = some q) : During b q

/-- Whether each error in a pool was met in its run or left behind before it. A lost worker may
leave others at work on the run before, but then nothing is returned for them. -/
structure Accounted (left : Option Error) (p : Pool) : Prop where
  leader : ∀ e, p.leader.error? = some e → e ∈ p.faults
  worker : ∀ (i : Nat) w e, p.workers[i]? = some w → w.stage.fault? = some e →
    e ∈ p.faults ∨ p.HasLost
  failure : ∀ e, p.failure = some e → e ∈ p.faults ∨ left = some e ∨ p.HasLost
  returned : ∀ e, p.leader = .resting (some (.error e)) →
    e ∈ p.faults ∨ left = some e ∧ p.AllIdle ∧ p.failure = none

variable {workers interval minDispatch : Nat} {p q : Pool} {left : Option Error}

theorem hasLost_of_stages_eq (stages : ∀ j : Nat,
    q.workers[j]?.map (·.stage) = p.workers[j]?.map (·.stage)) (lost : p.HasLost) :
    q.HasLost := by
  obtain ⟨j, w, found, stage⟩ := lost
  have same := stages j
  rw [found, Option.map_some] at same
  obtain ⟨v, found', stage'⟩ := Option.map_eq_some_iff.1 same
  exact ⟨j, v, found', stage'.trans stage⟩

theorem not_hasLost_of_allIdle (idle : p.AllIdle) : ¬ p.HasLost := by
  rintro ⟨i, w, found, stage⟩
  rw [(idle i w found).1] at stage
  cases stage

theorem faults_of_workerTurn {i : Nat} {w : Worker} {grows : Bool}
    (turn : p.WorkerTurn grows i w q) :
    ∃ v, q.workers = (p.put i v).workers ∧ q.leader = p.leader ∧ w.stage ≠ .lost ∧
      (∀ e ∈ p.faults, e ∈ q.faults) ∧
      (∀ e, v.stage.fault? = some e → e ∈ q.faults ∨ w.stage.fault? = some e) ∧
      ∀ e, q.failure = some e → p.failure = some e ∨ w.stage.fault? = some e := by
  cases turn with
  | counts stage =>
    refine ⟨_, rfl, rfl, by simp [stage], fun e mem => mem, fun e fault => .inr ?_,
      fun e failure => .inl failure⟩
    rw [stage]
    cases ‹Option Error› with
    | none => simp [WorkerStage.fault?] at fault
    | some e' => exact fault
  | cancels stage =>
    refine ⟨_, rfl, rfl, by simp [stage], fun e mem => mem, fun e fault => .inr ?_,
      fun e failure => .inl failure⟩
    rw [stage]
    exact fault
  | records stage =>
    refine ⟨_, rfl, rfl, by simp [stage], fun e mem => mem, by simp [WorkerStage.fault?],
      fun e failure => ?_⟩
    rw [stage]
    simp only [HOrElse.hOrElse, OrElse.orElse, put] at failure
    cases older : p.failure with
    | none =>
      rw [older] at failure
      exact .inr failure
    | some e' =>
      rw [older] at failure
      exact .inl failure
  | fails stage | overflows e stage =>
    refine ⟨_, rfl, rfl, by simp [stage], fun e mem => List.mem_append_left _ mem,
      fun e fault => .inl ?_, fun e failure => .inl failure⟩
    obtain rfl := Option.some.inj fault
    exact List.mem_append_right _ (List.mem_singleton_self _)
  | scans stage =>
    exact ⟨_, rfl, rfl, by simp [stage], fun e mem => mem, by simp [stage, WorkerStage.fault?],
      fun e failure => .inl failure⟩
  | receives stage | stops stage | resumes stage | dries stage | pauses stage | ends stage
  | refills stage | declines stage | seesLeader stage | doubts stage | seesNobody stage
  | seesWorker stage | offers stage | leaves stage =>
    exact ⟨_, rfl, rfl, by simp [stage], fun e mem => mem, by simp [WorkerStage.fault?],
      fun e failure => .inl failure⟩

theorem accounted_workerTurn {i : Nat} {w : Worker} {grows : Bool} (accounted : p.Accounted left)
    (found : p.workers[i]? = some w) (turn : p.WorkerTurn grows i w q) : q.Accounted left := by
  obtain ⟨v, workers, leader, alive, more, faults, failures⟩ := faults_of_workerTurn turn
  have get : ∀ j, q.workers[j]? = if i = j then some v else p.workers[j]? := fun j => by
    rw [workers, getElem?_put found]
  have lost : p.HasLost → q.HasLost := by
    rintro ⟨j, u, hu, stage⟩
    have other : i ≠ j := by
      rintro rfl
      obtain rfl := Option.some.inj (found.symm.trans hu)
      exact alive stage
    exact ⟨j, u, by rw [get, if_neg other]; exact hu, stage⟩
  have met : ∀ e, w.stage.fault? = some e → e ∈ q.faults ∨ q.HasLost := fun e fault =>
    (accounted.worker i w e found fault).imp (more e) lost
  constructor
  · intro e held
    exact more e (accounted.leader e (leader ▸ held))
  · intro j u e hu fault
    rw [get] at hu
    split at hu
    · obtain rfl := Option.some.inj hu
      exact (faults e fault).elim .inl (met e)
    · exact (accounted.worker j u e hu fault).imp (more e) lost
  · intro e failure
    obtain older | fault := failures e failure
    · exact (accounted.failure e older).imp (more e) (Or.imp_right lost)
    · exact (met e fault).imp_right .inr
  · intro e returned
    obtain mem | ⟨-, idle, -⟩ := accounted.returned e (leader ▸ returned)
    · exact .inl (more e mem)
    · exact absurd turn (no_turn_of_idle (idle i w found))

theorem accounted_lose {i : Nat} (accounted : p.Accounted left) (taken : p.lose i = some q) :
    q.Accounted left := by
  unfold lose at taken
  cases found : p.workers[i]? with
  | none => simp [found] at taken
  | some w =>
    by_cases resting : w.stage = .resting
    · simp [found, resting] at taken
    · simp only [found, Option.bind_eq_bind, Option.bind_some, if_neg resting] at taken
      obtain rfl := Option.some.inj taken
      rw [modifyWorker_eq_put found]
      have lost : (p.put i { w with stage := .lost }).HasLost :=
        ⟨i, _, by rw [getElem?_put found, if_pos rfl], rfl⟩
      refine ⟨accounted.leader, fun j u e hu fault => .inr lost, fun e failure => .inr (.inr lost),
        fun e returned => (accounted.returned e returned).imp_right fun h => ?_⟩
      exact absurd (h.2.1 i w found).1 resting

theorem stages_of_leaderTurn (order : p.Orderly) {grows : Bool} (turn : p.LeaderTurn grows q)
    (j : Nat) : q.workers[j]?.map (·.stage) = p.workers[j]?.map (·.stage) := by
  cases turn with
  | @sends i count rest here =>
    obtain ⟨-, idle⟩ := order.sending _ _ here
    obtain ⟨w, found, rests⟩ := idle i List.mem_cons_self
    rw [send_eq found rests]
    change ((put i _ p).workers[j]?).map _ = _
    rw [getElem?_put found]
    by_cases same : i = j
    · subst same
      rw [if_pos rfl, found]
      rfl
    · rw [if_neg same]
  | _ => rfl

theorem error?_of_follows {a b : LeaderStage} (follows : p.Follows a b) {e : Error}
    (held : b.error? = some e) : a.error? = some e := by
  cases follows with
  | settles | waits | stirs => cases ‹Except Error Nat› <;> exact held
  | _ => simp [LeaderStage.error?] at held

theorem faults_of_leaderTurn (order : p.Orderly) {grows : Bool} (turn : p.LeaderTurn grows q) :
    (∀ e ∈ p.faults, e ∈ q.faults) ∧
      (∀ e, q.leader.error? = some e → e ∈ q.faults ∨ p.leader.error? = some e) ∧
      ∀ e, q.failure = some e → p.failure = some e := by
  cases turn with
  | follows here follows =>
    exact ⟨fun e mem => mem, fun e held => .inr (here ▸ error?_of_follows follows held),
      fun e failure => failure⟩
  | @sends i count rest here =>
    obtain ⟨-, idle⟩ := order.sending _ _ here
    obtain ⟨w, found, rests⟩ := idle i List.mem_cons_self
    rw [send_eq found rests]
    exact ⟨fun e mem => mem, fun e held => by simp [LeaderStage.error?] at held,
      fun e failure => failure⟩
  | refills here =>
    refine ⟨fun e mem => mem, fun e held => ?_, fun e failure => failure⟩
    cases ‹Bool› <;> simp [LeaderStage.error?] at held
  | fails here | overflows here | misses here =>
    refine ⟨fun e mem => List.mem_append_left _ mem, fun e held => .inl ?_,
      fun e failure => failure⟩
    obtain rfl := Option.some.inj held
    exact List.mem_append_right _ (List.mem_singleton_self _)
  | ends here =>
    refine ⟨fun e mem => mem, fun e held => .inr ?_, fun e failure => failure⟩
    rw [here]
    cases ‹Except Error Nat› <;> exact held
  | @despairs i e' result here lost =>
    refine ⟨fun e mem => List.mem_append_left _ mem, fun e held => ?_, fun e failure => failure⟩
    rw [here]
    cases result with
    | error e₀ => exact .inr held
    | ok n =>
      obtain rfl := Option.some.inj held
      exact .inl (List.mem_append_right _ (List.mem_singleton_self _))
  | returnsFailure here =>
    exact ⟨fun e mem => mem, fun e held => by simp [LeaderStage.error?] at held,
      fun e failure => by simp at failure⟩
  | resumes here | scans here | returnsError here | returns here =>
    exact ⟨fun e mem => mem, fun e held => by simp [LeaderStage.error?] at held,
      fun e failure => failure⟩

theorem returned_of_leaderStep {grows : Bool} (taken : p.leaderStep grows = some q) {e : Error}
    (returned : q.leader = .resting (some (.error e))) :
    p.leader = .reporting (.error e) ∨
      (∃ n, p.leader = .reporting (.ok n)) ∧ p.failure = some e ∧ q.failure = none := by
  have turn := leaderTurn_of_leaderStep taken
  cases turn with
  | follows here follows => cases follows <;> cases returned
  | refills here => cases ‹Bool› <;> cases returned
  | returnsError here =>
    cases returned
    exact .inl here
  | @returnsFailure e' n here failure =>
    cases returned
    exact .inr ⟨⟨n, here⟩, failure, rfl⟩
  | _ => cases returned

theorem accounted_leaderStep (order : p.Orderly) (accounted : p.Accounted left) {grows : Bool}
    (taken : p.leaderStep grows = some q) : q.Accounted left := by
  have turn := leaderTurn_of_leaderStep taken
  have stages := stages_of_leaderTurn order turn
  obtain ⟨more, errors, failures⟩ := faults_of_leaderTurn order turn
  have lost := hasLost_of_stages_eq stages
  constructor
  · intro e held
    exact (errors e held).elim id fun older => more e (accounted.leader e older)
  · intro j u e hu fault
    have same := stages j
    rw [hu, Option.map_some] at same
    obtain ⟨v, found, stage⟩ := Option.map_eq_some_iff.1 same.symm
    exact (accounted.worker j v e found (stage ▸ fault)).imp (more e) lost
  · intro e failure
    exact (accounted.failure e (failures e failure)).imp (more e) (Or.imp_right lost)
  · intro e returned
    obtain own | ⟨⟨n, here⟩, failure, cleared⟩ := returned_of_leaderStep taken returned
    · exact .inl (more e (accounted.leader e (by rw [own]; rfl)))
    · -- A leader that has no error of its own has seen every worker at rest.
      have idle := order.quiet (by rw [here]; trivial)
      have order' := orderly_leaderTurn order turn
      obtain mem | older | gone := accounted.failure e failure
      · exact .inl (more e mem)
      · refine .inr ⟨older, ?_, cleared⟩
        have waited := order'.waited (by rw [returned]; trivial)
        refine waited.resolve_right fun gone => ?_
        exact not_hasLost_of_allIdle idle (hasLost_of_stages_eq (fun j => (stages j).symm) gone)
      · exact absurd gone (not_hasLost_of_allIdle idle)

theorem accounted_begin (order : p.Orderly) {around : Surroundings} {m : Marker}
    (taken : p.begin around m = some q) : q.Accounted p.failure := by
  unfold begin at taken
  split at taken
  · next result stage =>
    obtain rfl := Option.some.inj taken
    refine ⟨fun e held => by simp [LeaderStage.error?] at held, fun i w e found fault => .inr ?_,
      fun e failure => .inr (.inl failure), fun e returned => by simp at returned⟩
    refine (order.waited (by simp [stage, LeaderStage.HasWaited])).resolve_left fun idle => ?_
    rw [(idle i w found).1] at fault
    simp [WorkerStage.fault?] at fault
  · simp at taken

theorem reachable_of_during {b : Pool} (run : Pool.Reachable workers interval minDispatch b)
    (during : b.During p) : Pool.Reachable workers interval minDispatch p := by
  induction during with
  | begun => exact run
  | step action same before taken ih => exact .step action ih taken

theorem accounted_of_during {b : Pool} (few : workers ≤ maxMarkThreads)
    (run : Pool.Reachable workers interval minDispatch b) (begun : b.Accounted left)
    (during : b.During p) : p.Accounted left := by
  induction during with
  | begun => exact begun
  | @step p q action same before taken ih =>
    have order := orderly_of_reachable few (reachable_of_during run before)
    cases action with
    | begin around m => exact absurd rfl (same around m)
    | leader grows => exact accounted_leaderStep order ih taken
    | worker i grows free =>
      obtain ⟨w, found, turn⟩ := workerTurn_of_workerStep taken
      exact accounted_workerTurn ih found turn
    | lose i => exact accounted_lose ih taken

/-- A run returns an error that somebody met in it or one that was left behind before it, and leaves
one behind only if it returns another that somebody met in it. -/
theorem error_of_returned {b : Pool} (few : workers ≤ maxMarkThreads)
    (run : Pool.Reachable workers interval minDispatch q) {around : Surroundings} {m : Marker}
    (begun : q.begin around m = some b) (during : b.During p) {result : Except Error Nat}
    (returned : p.leader = .resting (some result)) :
    (∀ e, result = .error e → e ∈ p.faults ∨ q.failure = some e) ∧
      (q.failure = none → p.faults = [] → ∃ n, result = .ok n) ∧
      ∀ e, p.failure = some e → ∃ e', result = .error e' ∧ e' ∈ p.faults := by
  have run' : Pool.Reachable workers interval minDispatch b := .step (.begin around m) run begun
  have accounted := accounted_of_during few run'
    (accounted_begin (orderly_of_reachable few run) begun) during
  have source : ∀ e, result = .error e → e ∈ p.faults ∨ q.failure = some e := by
    rintro e rfl
    exact (accounted.returned e returned).imp_right And.left
  refine ⟨source, fun nothing clean => ?_, fun e failure => ?_⟩
  · cases result with
    | ok n => exact ⟨n, rfl⟩
    | error e => simpa [clean, nothing] using source e rfl
  · cases result with
    | ok n =>
      have cleared := failure_eq_none_of_returned few (reachable_of_during run' during) returned
      simp [cleared] at failure
    | error e' =>
      obtain mem | ⟨-, -, cleared⟩ := accounted.returned e' returned
      · exact ⟨e', rfl, mem⟩
      · simp [cleared] at failure

def afterSteps : List Action → Pool → Pool
  | [], p => p
  | action :: rest, p => afterSteps rest ((p.step action).getD p)

theorem reachable_afterSteps (run : Pool.Reachable workers interval minDispatch p)
    (actions : List Action) :
    Pool.Reachable workers interval minDispatch (p.afterSteps actions) := by
  induction actions generalizing p with
  | nil => exact run
  | cons action rest ih =>
    cases taken : p.step action with
    | none =>
      simp only [afterSteps, taken]
      exact ih run
    | some q =>
      simp only [afterSteps, taken]
      exact ih (.step action run taken)

theorem during_afterSteps {b : Pool} (during : b.During p) {actions : List Action}
    (same : ∀ action ∈ actions, ∀ around m, action ≠ .begin around m) :
    b.During (p.afterSteps actions) := by
  induction actions generalizing p with
  | nil => exact during
  | cons action rest ih =>
    have rest_same := fun a mem => same a (List.mem_cons_of_mem action mem)
    cases taken : p.step action with
    | none =>
      simp only [afterSteps, taken]
      exact ih during rest_same
    | some q =>
      simp only [afterSteps, taken]
      exact ih (.step action (same action List.mem_cons_self) during taken) rest_same

def refusal? : LeaderStage → Option Error
  | .resting (some (.error e)) => some e
  | _ => none

theorem eq_resting_of_refusal? {stage : LeaderStage} {e : Error}
    (refused : refusal? stage = some e) : stage = .resting (some (.error e)) := by
  unfold refusal? at refused
  split at refused
  · obtain rfl := Option.some.inj refused
    rfl
  · simp at refused

def broadPage : Page :=
  { id := 0, base := 65536, size := 65536, kind := .small .raw, blockSize := 4096 }

def leafPage : Page :=
  { id := 1, base := 131072, size := 65536, kind := .small .pointerFree, blockSize := 16 }

def referTo (count first word : Nat) (contents : Words) : Words :=
  (List.range count).foldl
    (fun contents k => contents.set (word + k) (.ofNat (leafPage.blockAddr (first + k)))) contents

/-- The first of two blocks refers to 257 small blocks, the second to two more. -/
def broadArena : Arena where
  hugeThreshold := 4096
  heapLimit := 0
  directory := ((Directory.install (fun _ => true) broadPage {}).2.install (fun _ => true) leafPage).2
  slabs := #[
    { Slab.fresh broadPage with
      allocated := (List.range 2).foldl .set (.empty 16)
      used := 2
      cursor := 2
      contents := referTo 2 257 512 (referTo 257 0 0 .zero) },
    { Slab.fresh leafPage with
      allocated := (List.range 259).foldl .set (.empty 4096)
      used := 259
      cursor := 259 }]
  byBase := ((∅ : Std.ExtTreeMap Addr Nat).insert broadPage.base 0).insert leafPage.base 1
  roomy := ((∅ : Std.ExtTreeMap SizeClass (List Nat)).insert ⟨.raw, 4096⟩ [0]).insert
    ⟨.pointerFree, 16⟩ [1]
  privateBytes := 131072
  liveBlocks := 261
  liveBytes := 12336
  mapped := 2

/-- A run with one worker. The worker has room for the first block that it finds, in place of the
one it was sent, and none for the second. The leader has room for 256 blocks. The worker leaves its
failure to the leader, and the leader returns its own. -/
def bothFail : Pool :=
  (Pool.new 1 1 1).afterSteps
    ([.begin Embedding.sample.toSurroundings
        (({ arena := broadArena } : Marker).markEach [69632, 65536])] ++
      List.replicate 4 (.leader true) ++ List.replicate 4 (.worker 0 true true) ++
      [.worker 0 false true] ++ List.replicate 257 (.leader true) ++ [.leader false] ++
      List.replicate 4 (.worker 0 true true) ++ List.replicate 3 (.leader true))

def nextBegun : Pool :=
  (bothFail.begin Embedding.sample.toSurroundings { arena := broadArena }).getD bothFail

def nextEnded : Pool := nextBegun.afterSteps (List.replicate 9 (.leader true))

theorem outcome_bothFail :
    bothFail.faults = [.markStackExhausted 1, .markStackExhausted 256] ∧
      refusal? bothFail.leader = some (.markStackExhausted 256) ∧ nextEnded.faults = [] ∧
      refusal? nextEnded.leader = some (.markStackExhausted 1) := by
  decide +kernel

theorem begin_bothFail :
    bothFail.begin Embedding.sample.toSurroundings { arena := broadArena } = some nextBegun := by
  have resting := eq_resting_of_refusal? outcome_bothFail.2.1
  rw [nextBegun, begin, resting]
  rfl

theorem during_nextEnded : nextBegun.During nextEnded := by
  refine during_afterSteps .begun fun action mem => ?_
  obtain rfl := (List.mem_replicate.1 mem).2
  simp

theorem leader_nextEnded :
    nextEnded.leader = .resting (some (.error (.markStackExhausted 1))) :=
  eq_resting_of_refusal? outcome_bothFail.2.2.2

/-- The first run fails twice and returns the leader's failure. The next run meets no fault, and
returns the one that was left behind. -/
theorem returns_error_left_behind :
    Pool.Reachable 1 1 1 bothFail ∧
      bothFail.faults = [.markStackExhausted 1, .markStackExhausted 256] ∧
      refusal? bothFail.leader = some (.markStackExhausted 256) ∧
      bothFail.begin Embedding.sample.toSurroundings { arena := broadArena } =
        some nextBegun ∧
      nextBegun.During nextEnded ∧ nextEnded.faults = [] ∧
      nextEnded.leader = .resting (some (.error (.markStackExhausted 1))) :=
  ⟨reachable_afterSteps .new _, outcome_bothFail.1, outcome_bothFail.2.1, begin_bothFail,
    during_nextEnded, outcome_bothFail.2.2.1, leader_nextEnded⟩

theorem error_of_returned_nextEnded :
    nextEnded.faults = [] ∧ (Error.markStackExhausted 1 ∈ nextEnded.faults ∨
      bothFail.failure = some (.markStackExhausted 1)) :=
  ⟨outcome_bothFail.2.2.1, (error_of_returned (by decide) (reachable_afterSteps .new _) begin_bothFail
    during_nextEnded leader_nextEnded).1 _ rfl⟩

end Pool

end MarkSweep
