import MarkSweep.Proofs.PoolTurns

set_option autoImplicit false

namespace MarkSweep

def Worker.IsIdle (w : Worker) : Prop := w.stage = .resting ∧ w.inbox = []

instance (w : Worker) : Decidable w.IsIdle := inferInstanceAs (Decidable (_ ∧ _))

/-- Whether a worker has at most one share, and none while it is at work. -/
structure Worker.Orderly (w : Worker) : Prop where
  rested : w.stage = .resting → w.scanner = {} ∧ w.inbox.length ≤ 1
  busy : w.stage ≠ .resting → w.inbox = []

/-- Whether the leader takes it that no worker is active. -/
def LeaderStage.FoundNobody : LeaderStage → Prop
  | .refilling true | .reporting (.ok _) | .resting none | .resting (some (.ok _)) => True
  | _ => False

/-- Whether the leader has waited for the workers at the end of a run. -/
def LeaderStage.HasWaited : LeaderStage → Prop
  | .reporting _ | .resting _ => True
  | _ => False

namespace Pool

def AllIdle (p : Pool) : Prop := ∀ (i : Nat) w, p.workers[i]? = some w → w.IsIdle

def HasLost (p : Pool) : Prop := ∃ (i : Nat) (w : Worker), p.workers[i]? = some w ∧ w.stage = .lost

/-- Whether the bits of a pool, its workers and its leader agree. -/
structure Orderly (p : Pool) : Prop where
  few : p.workers.size ≤ maxMarkThreads
  worker : ∀ (i : Nat) w, p.workers[i]? = some w → w.Orderly
  bits : ∀ (i : Nat) w, p.workers[i]? = some w → (Word.bit p.active i = true ↔ ¬ w.IsIdle)
  sending : ∀ is count, p.leader = .sending is count →
    is.Nodup ∧ ∀ i ∈ is, ∃ w, p.workers[i]? = some w ∧ w.IsIdle
  waited : p.leader.HasWaited → p.AllIdle ∨ p.HasLost
  quiet : p.leader.FoundNobody → p.AllIdle

theorem lt_of_found {p : Pool} (order : p.Orderly) {i : Nat} {w : Worker}
    (found : p.workers[i]? = some w) : i < 64 := by
  have bound := (Array.getElem?_eq_some_iff.1 found).1
  have few := order.few
  rw [maxMarkThreads] at few
  omega

theorem allIdle_of_active_eq_zero {p : Pool} (order : p.Orderly) (none_active : p.active = 0) :
    p.AllIdle := by
  intro i w found
  by_contra busy
  have bit := (order.bits i w found).2 busy
  rw [none_active, Word.bit_zero] at bit
  exact Bool.false_ne_true bit

theorem hasLost_of_lost?_eq_some {p : Pool} {i : Nat} (lost : p.lost? = some i) : p.HasLost := by
  have stage := List.find?_some lost
  simp only [Bool.and_eq_true, beq_iff_eq] at stage
  obtain ⟨w, found, h⟩ := Option.map_eq_some_iff.1 stage.2
  exact ⟨i, w, found, h⟩

theorem orderly_put {p r : Pool} (order : p.Orderly) {i : Nat} {v w : Worker}
    (found : p.workers[i]? = some w) (busy : ¬ w.IsIdle) (sound : v.Orderly)
    (workers : r.workers = p.workers) (leader : r.leader = p.leader)
    (bits : ∀ j, Word.bit r.active j = if i = j then decide (¬ v.IsIdle) else Word.bit p.active j)
    (lost : w.stage = .lost → v.stage = .lost) : (r.put i v).Orderly := by
  have get : ∀ j, (r.put i v).workers[j]? = if i = j then some v else p.workers[j]? := by
    intro j
    rw [getElem?_put (workers ▸ found) v j, workers]
  have not_all : ¬ p.AllIdle := fun h => busy (h i w found)
  constructor
  · rw [put, Array.size_setIfInBounds, workers]
    exact order.few
  · intro j u hu
    rw [get] at hu
    split at hu
    · obtain rfl := Option.some.inj hu
      exact sound
    · exact order.worker j u hu
  · intro j u hu
    rw [get] at hu
    change Word.bit r.active j = true ↔ _
    rw [bits]
    split at hu
    · next same =>
      obtain rfl := Option.some.inj hu
      rw [if_pos same, decide_eq_true_iff]
    · next other =>
      rw [if_neg other]
      exact order.bits j u hu
  · intro is count stage
    obtain ⟨nodup, idle⟩ := order.sending is count (leader ▸ stage)
    refine ⟨nodup, fun j hj => ?_⟩
    obtain ⟨u, hu, rests⟩ := idle j hj
    have other : i ≠ j := by
      rintro rfl
      obtain rfl := Option.some.inj (found.symm.trans hu)
      exact busy rests
    exact ⟨u, by rw [get, if_neg other]; exact hu, rests⟩
  · intro waits
    obtain ⟨j, u, hu, stage⟩ := (order.waited (leader ▸ waits)).resolve_left not_all
    by_cases same : i = j
    · subst same
      obtain rfl := Option.some.inj (found.symm.trans hu)
      exact .inr ⟨i, v, by rw [get, if_pos rfl], lost stage⟩
    · exact .inr ⟨j, u, by rw [get, if_neg same]; exact hu, stage⟩
  · intro nobody
    exact absurd (order.quiet (leader ▸ nobody)) not_all

theorem orderly_put_busy {p r : Pool} (order : p.Orderly) {i : Nat} {v w : Worker}
    (found : p.workers[i]? = some w) (busy : ¬ w.IsIdle) (inbox : v.inbox = [])
    (stage : v.stage ≠ .resting) (workers : r.workers = p.workers) (leader : r.leader = p.leader)
    (active : r.active = p.active) (lost : w.stage = .lost → v.stage = .lost) :
    (r.put i v).Orderly := by
  have busy' : ¬ v.IsIdle := fun h => stage h.1
  refine orderly_put order found busy ⟨fun h => absurd h stage, fun _ => inbox⟩ workers leader ?_
    lost
  intro j
  rw [active]
  split
  · next same =>
    subst same
    rw [(order.bits _ w found).2 busy, decide_eq_true busy']
  · rfl

theorem orderly_workerTurn {p q : Pool} (order : p.Orderly) {i : Nat} {w : Worker} {grows : Bool}
    (found : p.workers[i]? = some w) (turn : p.WorkerTurn grows i w q) : q.Orderly := by
  have bound := lt_of_found order found
  obtain ⟨rested, busy⟩ := order.worker i w found
  have at_work : w.stage ≠ .resting → ¬ w.IsIdle := fun h idle => h idle.1
  cases turn with
  | receives stage shares =>
    have single := (rested stage).2
    rw [shares, List.length_cons] at single
    have inbox := List.eq_nil_of_length_eq_zero (Nat.le_zero.1 (Nat.le_of_succ_le_succ single))
    have share : ¬ w.IsIdle := fun idle => by simp [idle.2] at shares
    exact orderly_put_busy order found share inbox (by simp) rfl rfl rfl (by simp [stage])
  | leaves stage =>
    have resting : w.stage ≠ .resting := by simp [stage]
    have idle : ({ w with stage := .resting, scanner := {} } : Worker).IsIdle :=
      ⟨rfl, busy resting⟩
    refine orderly_put order found (at_work resting) ⟨fun _ => ⟨rfl, ?_⟩, fun h => absurd rfl h⟩ rfl
      rfl (fun j => ?_) (by simp [stage])
    · rw [idle.2]
      exact Nat.zero_le 1
    · rw [Word.bit_withoutBit _ bound]
      by_cases same : i = j
      · simp [same, idle]
      · simp [same]
  | counts stage =>
    have resting : w.stage ≠ .resting := by simp [stage]
    refine orderly_put_busy order found (at_work resting) (busy resting) ?_ rfl rfl rfl
      (by simp [stage])
    cases ‹Option Error› <;> simp
  | stops stage | resumes stage | dries stage | pauses stage | scans stage | fails stage
  | ends stage | refills stage | overflows e stage | declines stage | seesLeader stage
  | doubts stage | seesNobody stage | seesWorker stage | offers stage | cancels stage
  | records stage =>
    have resting : w.stage ≠ .resting := by simp [stage]
    exact orderly_put_busy order found (at_work resting) (busy resting) (by simp [stage]) rfl rfl
      rfl (by simp [stage])

theorem orderly_lose {p q : Pool} (order : p.Orderly) {i : Nat} (taken : p.lose i = some q) :
    q.Orderly := by
  unfold lose at taken
  cases found : p.workers[i]? with
  | none => simp [found] at taken
  | some w =>
    by_cases resting : w.stage = .resting
    · simp [found, resting] at taken
    · simp only [found, Option.bind_eq_bind, Option.bind_some, if_neg resting] at taken
      obtain rfl := Option.some.inj taken
      rw [modifyWorker_eq_put found]
      exact orderly_put_busy order found (fun idle => resting idle.1)
        ((order.worker i w found).busy resting) (by simp) rfl rfl rfl fun _ => rfl

theorem mem_restingWorkers {p : Pool} (order : p.Orderly) {i : Nat}
    (rests : i ∈ restingWorkers p.workers.size p.active) :
    ∃ w, p.workers[i]? = some w ∧ w.IsIdle := by
  obtain ⟨bound, clear⟩ := mem_restingWorkers_iff.1 rests
  have found := Array.getElem?_eq_getElem bound
  refine ⟨_, found, ?_⟩
  by_contra busy
  have bit := (order.bits i _ found).2 busy
  simp [bit] at clear

theorem send_eq {p : Pool} {i : Nat} {w : Worker} (found : p.workers[i]? = some w) (idle : w.IsIdle)
    (grows : Bool) (count : Nat) :
    p.send grows i count =
      put i { w with inbox := [(p.scanner.pending.takeOldest count).1] }
        { p with
          scanner := { p.scanner with pending := (p.scanner.pending.takeOldest count).2 }
          active := Word.withBit p.active i } := by
  have there : p.workers[i]?.map (·.stage) ≠ some .lost := by simp [found, idle.1]
  have accepted := modifyWorker_eq_put
    (p := { p with
      scanner := { p.scanner with pending := (p.scanner.pending.takeOldest count).2 }
      active := Word.withBit p.active i }) found
    fun w => { w with inbox := w.inbox ++ [(p.scanner.pending.takeOldest count).1] }
  unfold send
  simp only [if_pos there]
  rw [accepted, idle.2]
  rfl

theorem orderly_send {p : Pool} (order : p.Orderly) {i : Nat} {rest : List Nat} {count : Nat}
    (stage : p.leader = .sending (i :: rest) count) (grows : Bool) :
    ({ p.send grows i count with leader := .sending rest count } : Pool).Orderly := by
  obtain ⟨nodup, idle⟩ := order.sending _ _ stage
  obtain ⟨w, found, rests⟩ := idle i List.mem_cons_self
  have bound := lt_of_found order found
  rw [send_eq found rests]
  have get := getElem?_put (i := i) (p := { p with
      scanner := { p.scanner with pending := (p.scanner.pending.takeOldest count).2 }
      active := Word.withBit p.active i }) found
    { w with inbox := [(p.scanner.pending.takeOldest count).1] }
  constructor
  · rw [put, Array.size_setIfInBounds]
    exact order.few
  · intro j u hu
    rw [get] at hu
    split at hu
    · obtain rfl := Option.some.inj hu
      exact ⟨fun h => ⟨((order.worker i w found).rested h).1, Nat.le_refl 1⟩, fun h =>
        absurd rests.1 h⟩
    · exact order.worker j u hu
  · intro j u hu
    rw [get] at hu
    change Word.bit (Word.withBit p.active i) j = true ↔ _
    rw [Word.bit_withBit _ bound]
    split at hu
    · next same =>
      obtain rfl := Option.some.inj hu
      simp [same, Worker.IsIdle]
    · next other =>
      simp only [other, decide_false, Bool.or_false]
      exact order.bits j u hu
  · intro is count' stage'
    obtain ⟨rfl, -⟩ := LeaderStage.sending.inj stage'
    obtain ⟨new, nodup⟩ := List.nodup_cons.1 nodup
    refine ⟨nodup, fun j hj => ?_⟩
    obtain ⟨u, hu, idle⟩ := idle j (List.mem_cons_of_mem i hj)
    have other : i ≠ j := fun same => new (same ▸ hj)
    exact ⟨u, by rw [get, if_neg other]; exact hu, idle⟩
  · exact fun h => h.elim
  · exact fun h => h.elim

theorem orderly_lead {p q : Pool} (order : p.Orderly) (workers : q.workers = p.workers)
    (active : q.active = p.active) (sending : ∀ is count, q.leader ≠ .sending is count)
    (waited : q.leader.HasWaited → p.AllIdle ∨ p.HasLost)
    (quiet : q.leader.FoundNobody → p.AllIdle) : q.Orderly := by
  constructor
  · exact workers ▸ order.few
  · exact workers ▸ order.worker
  · rw [workers, active]
    exact order.bits
  · exact fun is count stage => absurd stage (sending is count)
  · unfold AllIdle HasLost
    rw [workers]
    exact waited
  · unfold AllIdle
    rw [workers]
    exact quiet

theorem orderly_follows {p : Pool} (order : p.Orderly) {a b : LeaderStage} {leaderRests : Bool}
    (here : p.leader = a) (follows : p.Follows a b) :
    ({ p with leader := b, leaderRests } : Pool).Orderly := by
  cases follows with
  | deals =>
    refine ⟨order.few, order.worker, order.bits, fun is count dealt => ?_, fun h => h.elim,
      fun h => h.elim⟩
    obtain ⟨rfl, -⟩ := LeaderStage.sending.inj dealt
    exact ⟨nodup_restingWorkers _ _, fun i hi => mem_restingWorkers order hi⟩
  | confirms nobody | settles nobody =>
    -- The one look at all bits at once says that nobody has anything to do.
    have idle := allIdle_of_active_eq_zero order nobody
    exact orderly_lead order rfl rfl (by simp) (fun _ => .inl idle) fun _ => idle
  | _ => exact orderly_lead order rfl rfl (by simp) (fun h => h.elim) fun h => h.elim

theorem orderly_leaderTurn {p q : Pool} (order : p.Orderly) {grows : Bool}
    (turn : p.LeaderTurn grows q) : q.Orderly := by
  cases turn with
  | follows here follows => exact orderly_follows order here follows
  | sends here => exact orderly_send order here grows
  | refills here =>
    cases ‹Bool› with
    | true | false => exact orderly_lead order rfl rfl (by simp) (fun h => h.elim) fun h => h.elim
  | despairs here lost =>
    have failed := hasLost_of_lost?_eq_some lost
    refine orderly_lead order rfl rfl (by simp) (fun _ => .inr failed) ?_
    cases ‹Except Error Nat› <;> exact fun h => h.elim
  | returnsError here | returnsFailure here =>
    have waited := order.waited (by rw [here]; trivial)
    exact orderly_lead order rfl rfl (by simp) (fun _ => waited) fun h => h.elim
  | returns here failure =>
    have waited := order.waited (by rw [here]; trivial)
    have quiet := order.quiet (by rw [here]; trivial)
    exact orderly_lead order rfl rfl (by simp) (fun _ => waited) fun _ => quiet
  | resumes | scans | fails | overflows | misses | ends =>
    exact orderly_lead order rfl rfl (by simp [leaderFails]) (fun h => h.elim) fun h => h.elim

theorem orderly_begin {p q : Pool} (order : p.Orderly) {around : Surroundings} {m : Marker}
    (taken : p.begin around m = some q) : q.Orderly := by
  unfold begin at taken
  split at taken
  · obtain rfl := Option.some.inj taken
    exact orderly_lead order rfl rfl (by simp) (fun h => h.elim) fun h => h.elim
  · simp at taken

theorem orderly_new {workers : Nat} (few : workers ≤ maxMarkThreads) (interval minDispatch : Nat) :
    (Pool.new workers interval minDispatch).Orderly := by
  have idle : (Pool.new workers interval minDispatch).AllIdle := by
    intro i w found
    simp only [new, Array.getElem?_replicate] at found
    split at found
    · obtain rfl := Option.some.inj found
      exact ⟨rfl, rfl⟩
    · simp at found
  constructor
  · simpa [new] using few
  · intro i w found
    simp only [new, Array.getElem?_replicate] at found
    split at found
    · obtain rfl := Option.some.inj found
      exact ⟨fun _ => ⟨rfl, Nat.zero_le 1⟩, fun _ => rfl⟩
    · simp at found
  · intro i w found
    simp [new, Word.bit_zero, idle i w found]
  · simp [new]
  · exact fun _ => .inl idle
  · exact fun _ => idle

end Pool

end MarkSweep
