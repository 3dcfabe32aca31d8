import Mathlib.Logic.Relation
import MarkSweep.Proofs.PoolTracing
import MarkSweep.Proofs.WorkSharing

set_option autoImplicit false

namespace MarkSweep

def Worker.waiting (w : Worker) : List Addr := w.scanner.pending.toList ++ w.inbox.flatten

namespace Pool

variable {p q : Pool}

theorem waiting_eq (p : Pool) : p.waiting =
    p.scanner.pending.toList ++ p.surplus ++ p.workers.toList.flatMap Worker.waiting := rfl

/-- The leader takes steps while nobody else does. It needs no new memory: a share that comes back
finds the room that it left. -/
def LeaderSteps : Pool → Pool → Prop := Relation.ReflTransGen fun p q => p.leaderStep true = some q

theorem accepts_receive (p : Pool) (b : Nat × List Addr) :
    (p.receive b).accepts = p.accepts := by
  funext j
  simp only [accepts, receive, modifyWorker, Array.getElem?_modify]
  by_cases same : b.1 = j
  · rw [if_pos same]
    cases p.workers[j]? <;> simp
  · rw [if_neg same]

theorem send_of_accepts {i : Nat} (accepted : p.accepts i = true) (grows : Bool) (count : Nat) :
    p.send grows i count =
      receive
        { p with
          scanner := { p.scanner with pending := (p.scanner.pending.takeOldest count).2 }
          active := Word.withBit p.active i }
        (i, (p.scanner.pending.takeOldest count).1) := by
  rw [accepts, decide_eq_true_iff] at accepted
  simp only [send, if_pos accepted, receive]

theorem send_of_not_accepts {i : Nat} (refused : ¬ p.accepts i = true) (count : Nat) :
    p.send true i count =
      { p with
        scanner := { p.scanner with
          pending := (p.scanner.pending.takeOldest count).2.extend
            (p.scanner.pending.takeOldest count).1 } } := by
  rw [accepts, decide_eq_true_iff] at refused
  simp only [send, if_neg refused, if_true]

theorem leaderSteps_of_sending {workers : List Nat} {count : Nat}
    (here : p.leader = .sending workers count) :
    p.LeaderSteps (deliver (p.scanner.pending.handOut p.accepts count workers p.active)
      { p with leader := .looking }) := by
  induction workers generalizing p with
  | nil =>
    refine .single ?_
    simp only [leaderStep, here]
    rfl
  | cons i rest ih =>
    have sent : p.leaderStep true =
        some { p.send true i count with leader := .sending rest count } := by
      simp only [leaderStep, here]
    refine .head sent ?_
    have later := ih (p := { p.send true i count with leader := .sending rest count }) rfl
    by_cases accepted : p.accepts i = true
    · have same := accepts_receive p (i, (p.scanner.pending.takeOldest count).1)
      have first : p.scanner.pending.handOut p.accepts count (i :: rest) p.active =
          let others := (p.scanner.pending.takeOldest count).2.handOut p.accepts count rest
            (Word.withBit p.active i)
          { others with
            batches := (i, (p.scanner.pending.takeOldest count).1) :: others.batches } := by
        simp only [MarkStack.handOut, accepted, if_true]
      rw [send_of_accepts accepted] at later ⊢
      rw [first, ← same]
      exact later
    · have first : p.scanner.pending.handOut p.accepts count (i :: rest) p.active =
          ((p.scanner.pending.takeOldest count).2.extend
            (p.scanner.pending.takeOldest count).1).handOut p.accepts count rest p.active := by
        simp only [MarkStack.handOut, if_neg accepted]
      rw [send_of_not_accepts accepted] at later ⊢
      rw [first]
      exact later

theorem leaderSteps_of_dealing (here : p.leader = .dealing) :
    p.LeaderSteps (deliver
      (p.scanner.pending.dispatch p.minDispatch p.workers.size p.accepts p.active)
      { p with leader := .looking }) := by
  cases count : p.scanner.pending.share p.minDispatch
      (restingWorkers p.workers.size p.active).length with
  | zero =>
    have nothing : p.scanner.pending.dispatch p.minDispatch p.workers.size p.accepts p.active =
        { active := p.active, pending := p.scanner.pending } := by
      simp only [MarkStack.dispatch, count]
    rw [nothing]
    refine .single ?_
    simp only [leaderStep, here, count]
    rfl
  | succ n =>
    have shares : p.scanner.pending.dispatch p.minDispatch p.workers.size p.accepts p.active =
        p.scanner.pending.handOut p.accepts (n + 1) (restingWorkers p.workers.size p.active)
          p.active := by
      simp only [MarkStack.dispatch, count]
    have turn : p.leaderStep true = some
        { p with leader := .sending (restingWorkers p.workers.size p.active) (n + 1) } := by
      simp only [leaderStep, here, count]
    rw [shares]
    exact .head turn (leaderSteps_of_sending
      (p := { p with leader := .sending (restingWorkers p.workers.size p.active) (n + 1) }) rfl)

/-- One worker apart, what waits with the workers is the same whichever worker stands there. -/
theorem waiting_parts {workers : Array Worker} {i : Nat} {w : Worker}
    (found : workers[i]? = some w) :
    ∃ others, (workers.toList.flatMap Worker.waiting).Perm (w.waiting ++ others) ∧
      ∀ v, ((workers.setIfInBounds i v).toList.flatMap Worker.waiting).Perm
        (v.waiting ++ others) := by
  have found' : workers.toList[i]? = some w := by simpa using found
  obtain ⟨others, before, after⟩ := flatMap_set_perm Worker.waiting found'
  refine ⟨others, before, fun v => ?_⟩
  rw [Array.toList_setIfInBounds]
  exact after v

theorem waiting_perm_of_put {i : Nat} {v w : Worker} (found : p.workers[i]? = some w)
    (workers : q.workers = p.workers.setIfInBounds i v)
    (moved : (q.scanner.pending.toList ++ q.surplus ++ v.waiting).Perm
      (p.scanner.pending.toList ++ p.surplus ++ w.waiting)) : q.waiting.Perm p.waiting := by
  obtain ⟨others, before, after⟩ := waiting_parts found
  have start := before.append_left (p.scanner.pending.toList ++ p.surplus)
  have finish := (after v).append_left (q.scanner.pending.toList ++ q.surplus)
  rw [← List.append_assoc] at start finish
  rw [waiting_eq, waiting_eq, workers]
  exact finish.trans ((moved.append_right others).trans start.symm)

theorem size_receive (p : Pool) (b : Nat × List Addr) :
    (p.receive b).workers.size = p.workers.size :=
  Array.size_modify

theorem waiting_receive_perm {b : Nat × List Addr} (bound : b.1 < p.workers.size) :
    (p.receive b).waiting.Perm (b.2 ++ p.waiting) := by
  have found : p.workers[b.1]? = some p.workers[b.1] := Array.getElem?_eq_getElem bound
  obtain ⟨others, before, after⟩ := waiting_parts found
  rw [receive, modifyWorker_eq_put found, waiting_eq, waiting_eq]
  refine List.perm_iff_count.2 fun x => ?_
  have left := List.perm_iff_count.1 before x
  have right := List.perm_iff_count.1
    (after { p.workers[b.1] with inbox := p.workers[b.1].inbox ++ [b.2] }) x
  simp only [Worker.waiting, put, List.count_append, List.flatten_append, List.flatten_singleton]
    at left right ⊢
  omega

theorem waiting_foldl_receive {batches : List (Nat × List Addr)}
    (bounds : ∀ b ∈ batches, b.1 < p.workers.size) :
    (batches.foldl receive p).waiting.Perm (batches.flatMap (·.2) ++ p.waiting) := by
  induction batches generalizing p with
  | nil => exact .refl _
  | cons b rest ih =>
    obtain ⟨bound, bounds⟩ := List.forall_mem_cons.1 bounds
    have later := ih (p := p.receive b) (by rw [size_receive]; exact bounds)
    rw [List.foldl_cons, List.flatMap_cons]
    refine later.trans (((waiting_receive_perm bound).append_left _).trans ?_)
    rw [List.append_assoc]
    exact List.perm_append_comm_assoc _ _ _

theorem waiting_deliver_perm {h : Handout} (bounds : ∀ b ∈ h.batches, b.1 < p.workers.size)
    (conserved : (h.batches.flatMap (·.2) ++ h.pending.toList).Perm p.scanner.pending.toList) :
    (p.deliver h).waiting.Perm p.waiting := by
  refine (waiting_foldl_receive ?_).trans ?_
  · exact bounds
  · rw [waiting_eq, waiting_eq, List.append_assoc, List.append_assoc, ← List.append_assoc]
    exact conserved.append_right _

/-- A share that is sent is in an inbox or back, whatever others did since the leader dealt. -/
theorem waiting_perm_of_sending {i count : Nat} {rest : List Nat} (bound : i < p.workers.size)
    (here : p.leader = .sending (i :: rest) count) (taken : p.leaderStep true = some q) :
    q.waiting.Perm p.waiting := by
  simp only [leaderStep, here] at taken
  obtain rfl := Option.some.inj taken
  change (p.send true i count).waiting.Perm p.waiting
  have parts := MarkStack.toList_takeOldest p.scanner.pending count
  by_cases accepted : p.accepts i = true
  · rw [send_of_accepts accepted]
    refine (waiting_receive_perm bound).trans ?_
    rw [waiting_eq, waiting_eq, ← parts]
    simp only [List.append_assoc, List.Perm.refl]
  · rw [send_of_not_accepts accepted, waiting_eq, waiting_eq, ← parts,
      MarkStack.toList_extend, List.append_assoc, List.append_assoc (_ ++ _)]
    exact List.perm_append_comm.append_right _

theorem waiting_perm_of_refilling {nobodyActive grows : Bool}
    (here : p.leader = .refilling nobodyActive) (taken : p.leaderStep grows = some q) :
    q.waiting.Perm p.waiting := by
  cases leaderTurn_of_leaderStep taken with
  | follows | overflows => exact .refl _
  | refills =>
    have moved := MarkStack.takeSurplus_perm p.surplus p.scanner.pending
    simp only [MarkStack.takeSurplus, List.nil_append] at moved
    rw [waiting_eq, waiting_eq, List.append_nil]
    exact (moved.trans List.perm_append_comm).append_right _
  | sends here' | resumes here' | scans here' | fails here' | misses here' | ends here'
  | despairs here' | returnsError here' | returnsFailure here' | returns here' =>
    simp [here] at here'

theorem waiting_perm_of_exchange {i : Nat} {w : Worker} {grows free : Bool}
    (found : p.workers[i]? = some w)
    (here : w.stage = .resting ∧ w.scanner = {} ∨ w.stage = .refilling ∨ w.stage = .offering ∨
      w.stage = .comparing ∨ w.stage = .sharing)
    (taken : p.workerStep i grows free = some q) : q.waiting.Perm p.waiting := by
  obtain ⟨w', found', turn⟩ := workerTurn_of_workerStep taken
  obtain rfl := Option.some.inj (found.symm.trans found')
  cases turn with
  | receives stage shares =>
    have blank : w.scanner = {} := by
      simpa [stage] using here
    refine waiting_perm_of_put found rfl ?_
    simp only [put, Worker.waiting, blank, shares, MarkStack.toList_ofList, List.flatten_cons]
    exact .refl _
  | ends | overflows | declines | seesLeader | doubts | seesNobody | seesWorker =>
    exact waiting_perm_of_put found rfl (.refl _)
  | refills =>
    refine waiting_perm_of_put found rfl (List.perm_iff_count.2 fun x => ?_)
    simp only [put, Worker.waiting, MarkStack.toList_extend, List.count_append, List.count_nil]
    omega
  | @offers someoneRests surplus pending stage offered =>
    have moved := MarkStack.offerSurplus_perm p.minDispatch someoneRests p.surplus w.scanner.pending
    rw [offered] at moved
    refine waiting_perm_of_put found rfl (List.perm_iff_count.2 fun x => ?_)
    have same := List.perm_iff_count.1 moved x
    simp only [put, Worker.waiting, List.count_append] at same ⊢
    omega
  | stops stage | resumes stage | dries stage | pauses stage | scans stage
  | fails stage | counts stage | cancels stage | records stage | leaves stage =>
    rw [stage] at here
    simp at here

theorem surplus_send (grows : Bool) (i count : Nat) :
    (p.send grows i count).surplus = p.surplus := by
  simp only [send]
  split
  · rfl
  · split <;> rfl

/-- What is aside stays there, whoever takes a step, until all of it is taken at once. -/
theorem surplus_of_step {action : Action} (going : ∀ around start, action ≠ .begin around start)
    (aside : p.surplus ≠ []) (taken : p.step action = some q) :
    q.surplus = p.surplus ∨ q.surplus = [] ∧ q.waiting.Perm p.waiting := by
  cases action with
  | begin around start => exact absurd rfl (going around start)
  | leader grows =>
    cases leaderTurn_of_leaderStep taken with
    | sends => exact .inl (surplus_send grows _ _)
    | refills here => exact .inr ⟨rfl, waiting_perm_of_refilling here taken⟩
    | _ => exact .inl rfl
  | worker i grows free =>
    obtain ⟨w, found, turn⟩ := workerTurn_of_workerStep taken
    cases turn with
    | refills stage => exact .inr ⟨rfl, waiting_perm_of_exchange found (.inr (.inl stage)) taken⟩
    | @offers someoneRests surplus pending stage offered =>
      have offers := MarkStack.offers_offerSurplus p.minDispatch someoneRests p.surplus
        w.scanner.pending
      exact .inl (congrArg Prod.fst (offered.symm.trans (offers.guarded aside)))
    | _ => exact .inl rfl
  | lose i =>
    change p.lose i = some q at taken
    unfold lose at taken
    cases found : p.workers[i]? with
    | none => simp [found] at taken
    | some w =>
      by_cases resting : w.stage = .resting
      · simp [found, resting] at taken
      · simp only [found, Option.bind_eq_bind, Option.bind_some, if_neg resting] at taken
        obtain rfl := Option.some.inj taken
        exact .inl rfl

structure Redistributes (p : Pool) : Prop where
  dealt : p.leader = .dealing →
    let h := p.scanner.pending.dispatch p.minDispatch p.workers.size p.accepts p.active
    let q := deliver h { p with leader := .looking }
    p.LeaderSteps q ∧ q.waiting.Perm p.waiting
  /-- Other threads may take steps in between. -/
  sent : ∀ i rest count q, i < p.workers.size → p.leader = .sending (i :: rest) count →
    p.leaderStep true = some q → q.waiting.Perm p.waiting
  refilled : ∀ nobodyActive grows q, p.leader = .refilling nobodyActive →
    p.leaderStep grows = some q → q.waiting.Perm p.waiting
  exchanged : ∀ i w grows free q, p.workers[i]? = some w →
    w.stage = .resting ∧ w.scanner = {} ∨ w.stage = .refilling ∨ w.stage = .offering ∨
      w.stage = .comparing ∨ w.stage = .sharing →
    p.workerStep i grows free = some q → q.waiting.Perm p.waiting
  /-- A surplus is never replaced. A run that begins drops what the last one left. -/
  aside : ∀ action q, (∀ around start, action ≠ .begin around start) → p.surplus ≠ [] →
    p.step action = some q → q.surplus = p.surplus ∨ q.surplus = [] ∧ q.waiting.Perm p.waiting

theorem redistributes (p : Pool) : p.Redistributes := by
  constructor
  case dealt =>
    intro here h q
    have shares := MarkStack.sharesOut_dispatch p.minDispatch p.workers.size p.accepts p.active
      p.scanner.pending
    refine ⟨leaderSteps_of_dealing here, ?_⟩
    exact waiting_deliver_perm (p := { p with leader := .looking })
      (fun b mem => shares.lt_of_mem mem) shares.conserved
  case sent => exact fun _ _ _ _ bound here taken => waiting_perm_of_sending bound here taken
  case refilled => exact fun _ _ _ here taken => waiting_perm_of_refilling here taken
  case exchanged =>
    exact fun _ _ _ _ _ found here taken => waiting_perm_of_exchange found here taken
  case aside => exact fun _ _ going aside taken => surplus_of_step going aside taken

end Pool

/-- Sharing keeps every entry. Of the stack that is dispatched each resting worker gets its portion,
or the portion is back on the stack; of the surplus and the stack beside it each entry is in one of
the two, as often as before. -/
theorem MarkStack.keepsEntries (minDispatch workers : Nat) (accepts : Nat → Bool) (active : UInt64)
    (someoneRests : Bool) (surplus : List Addr) (s : MarkStack) :
    s.SharesOut minDispatch workers accepts active
        (s.dispatch minDispatch workers accepts active) ∧
      s.Offers minDispatch someoneRests surplus
        (s.offerSurplus minDispatch someoneRests surplus) ∧
      s.TakesBack surplus (s.takeSurplus surplus) ∧ ∀ p : Pool, p.Redistributes :=
  ⟨sharesOut_dispatch .., offers_offerSurplus .., takesBack_takeSurplus .., Pool.redistributes⟩

theorem MarkStack.keepsEntries_lostWorker :
    let p : Pool := { Pool.new 3 1 4 with
      workers := #[{}, { stage := .scanning }, { stage := .lost }]
      leader := .dealing
      scanner := { pending := .ofList [16, 32, 48, 64, 80, 96, 112] }
      active := 2 }
    let h := p.scanner.pending.dispatch p.minDispatch p.workers.size p.accepts p.active
    h.batches = [(0, [16, 32])] ∧ h.active = 3 ∧
      h.pending.toList = [80, 96, 112, 48, 64] ∧
      p.scanner.pending.dispatchInPlace? 7 p.minDispatch p.workers.size p.accepts p.active =
        some h ∧
      ∃ q, p.LeaderSteps q ∧ q.workers.toList.map (·.inbox) = [[[16, 32]], [], []] := by
  intro p h
  have keeps := keepsEntries p.minDispatch p.workers.size p.accepts p.active false []
    p.scanner.pending
  have returned := keeps.1.returned ⟨by decide, by decide⟩
  have inPlace := keeps.1.inPlace (by decide) 7 (by decide)
  have dealt := ((keeps.2.2.2 p).dealt rfl).1
  exact ⟨returned.1.trans (by decide), by decide, returned.2.trans (by decide), inPlace, _, dealt,
    by decide⟩

end MarkSweep
