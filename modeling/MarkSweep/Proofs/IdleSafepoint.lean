import MarkSweep.Proofs.HeapInvariant

set_option autoImplicit false

namespace MarkSweep

namespace Heap

section Idle

variable {h h' : Heap}

theorem phase_leave (h : Heap) (id : RecordId) :
    (h.leave id).2.safepoint.phase = h.safepoint.phase := by
  unfold leave unpark
  cases h.threads.unpark id with
  | mk result threads =>
    cases result with
    | error e => rfl
    | ok previous =>
      simp only
      split <;> rfl

theorem phase_poll (h : Heap) (c : Caller) :
    (h.poll c).2.safepoint.phase = h.safepoint.phase := by
  unfold poll
  split
  · exact phase_leave _ c.record
  · rfl

theorem phase_resumedBy (h : Heap) (caller : Option Caller) :
    (h.resumedBy caller).safepoint.phase = h.safepoint.phase := by
  cases caller <;> rfl

theorem phase_foldl_leave (callers : List Caller) (h : Heap) :
    (callers.foldl (fun h c => (h.leave c.record).2) h).safepoint.phase = h.safepoint.phase := by
  induction callers generalizing h with
  | nil => rfl
  | cons c callers ih => exact (ih _).trans (phase_leave h c.record)

theorem phase_stopWorld {patience : Patience} {whileStopping : Heap → Heap} {stop : Stop} {s : Heap}
    (stopping : h.stopWorld patience whileStopping = (stop, s)) :
    (stop = .waits → s = h) ∧ (stop = .abandoned → s.safepoint.phase = .idle) := by
  unfold stopWorld at stopping
  simp only at stopping
  split at stopping
  · obtain ⟨rfl, rfl⟩ := Prod.mk.inj stopping
    exact ⟨nofun, nofun⟩
  · cases patience with
    | limited =>
      obtain ⟨rfl, rfl⟩ := Prod.mk.inj stopping
      exact ⟨nofun, fun _ => rfl⟩
    | forever =>
      obtain ⟨rfl, rfl⟩ := Prod.mk.inj stopping
      exact ⟨fun _ => rfl, nofun⟩

variable {α : Type} {env : Embedding}

theorem idle_collectParked {patience : Patience} {others : Bystanders α}
    {result : Outcome (Option (CollectionReport × α))}
    (collected : h.collectParked env patience others = (result, h')) :
    result = .waits ∧ h' = h ∨ h'.safepoint.phase = .idle := by
  unfold collectParked at collected
  cases stopping : h.stopWorld patience others.whileStopping with
  | mk stop s =>
    obtain ⟨waits, abandoned⟩ := phase_stopWorld stopping
    rw [stopping] at collected
    cases stop with
    | waits =>
      obtain ⟨rfl, rfl⟩ := Prod.mk.inj collected
      exact .inl ⟨rfl, waits rfl⟩
    | abandoned =>
      obtain ⟨rfl, rfl⟩ := Prod.mk.inj collected
      exact .inr (abandoned rfl)
    | achieved =>
      simp only at collected
      cases marking : s.mark env with
      | mk marked f =>
        rw [marking] at collected
        cases marked <;>
          · obtain ⟨-, rfl⟩ := Prod.mk.inj collected
            exact .inr rfl

theorem idle_collectAmong (idle : h.safepoint.phase = .idle) {caller : Option Caller}
    {patience : Patience} {others : Bystanders α}
    {result : Outcome (Option (CollectionReport × α))}
    (collected : h.collectAmong env caller patience others = (result, h')) :
    h'.safepoint.phase = .idle := by
  obtain ⟨-, rfl⟩ | ⟨result', g, ran, rfl, -⟩ := whileParked_cases collected
  · exact idle
  · rw [phase_resumedBy]
    obtain ⟨-, rfl⟩ | ended := idle_collectParked ran
    · cases caller <;> exact idle
    · exact ended

theorem idle_collect (idle : h.safepoint.phase = .idle) {caller : Option Caller}
    {patience : Patience} {result : Outcome (Option CollectionReport)}
    (collected : h.collect env caller patience = (result, h')) : h'.safepoint.phase = .idle := by
  obtain ⟨result', among, -⟩ := collect_cases collected
  exact idle_collectAmong idle among

theorem idle_maybeCollect (idle : h.safepoint.phase = .idle) {caller : Option Caller}
    {result : Outcome Bool} (checked : h.maybeCollect env caller = (result, h')) :
    h'.safepoint.phase = .idle := by
  obtain ⟨-, rfl⟩ | ⟨collected, collecting, -⟩ := maybeCollect_cases checked
  · exact idle
  · exact idle_collect idle collecting

theorem idle_allocateNow (idle : h.safepoint.phase = .idle) {host : Host} {size : Nat}
    {kind : BlockKind} {result : Except Error Block}
    (asked : h.allocateNow host size kind = (result, h')) : h'.safepoint.phase = .idle := by
  obtain ⟨b, stats, -, rfl⟩ := allocateNow_cases asked
  exact idle

theorem idle_allocate (idle : h.safepoint.phase = .idle) {caller : Option Caller} {size : Nat}
    {kind : BlockKind} {result : Outcome Block}
    (done : h.allocate env caller size kind = (result, h')) : h'.safepoint.phase = .idle := by
  cases allocates_of_allocate done with
  | stuck checked nothing => exact idle_maybeCollect idle checked
  | answered checked asked => exact idle_allocateNow (idle_maybeCollect idle checked) asked
  | stuckAgain checked asked collecting nothing =>
    exact idle_collect (idle_allocateNow (idle_maybeCollect idle checked) asked) collecting
  | answeredAgain checked asked collecting askedAgain =>
    have first := idle_allocateNow (idle_maybeCollect idle checked) asked
    exact idle_allocateNow (idle_collect first collecting) askedAgain

theorem idle_collectPolled (idle : h.safepoint.phase = .idle) (caller : Option Caller)
    (pollers : List Caller) : (h.collectPolled env caller pollers).2.safepoint.phase = .idle := by
  unfold collectPolled
  simp only
  split
  · next collecting => exact idle_collectAmong idle collecting
  · next collecting =>
    rw [phase_foldl_leave]
    exact idle_collectAmong idle collecting

theorem idle_collectLeft (idle : h.safepoint.phase = .idle) (caller : Option Caller)
    (visitor : RecordId) : (h.collectLeft env caller visitor).2.safepoint.phase = .idle := by
  unfold collectLeft
  simp only
  split
  · next collecting =>
    rw [phase_leave]
    exact idle_collectAmong idle collecting
  · next collecting => exact idle_collectAmong idle collecting

theorem idle_collectAllocating (idle : h.safepoint.phase = .idle) (caller visitor : Option Caller)
    (size : Nat) (kind : BlockKind) :
    (h.collectAllocating env caller visitor size kind).2.safepoint.phase = .idle := by
  unfold collectAllocating
  simp only
  split
  · next report g collecting =>
    have collected := idle_collectAmong idle collecting
    rw [← phase_resumedBy g visitor] at collected
    exact idle_allocate collected rfl
  all_goals
    next collecting => exact idle_collectAmong idle collecting

theorem idle_dump (idle : h.safepoint.phase = .idle) (caller : Option Caller)
    (limit : Option Nat) : (h.dump env caller limit).2.safepoint.phase = .idle := by
  cases dumping : h.dump env caller limit with
  | mk result h' =>
    obtain ⟨-, rfl⟩ | ⟨result', g, ran, rfl, -⟩ := whileParked_cases dumping
    · exact idle
    · rw [phase_resumedBy]
      cases stopping : (h.parkedBy caller).stopWorld .forever fun h => h with
      | mk stop s =>
        obtain ⟨waits, abandoned⟩ := phase_stopWorld stopping
        rw [stopping] at ran
        cases stop with
        | achieved =>
          obtain ⟨-, rfl⟩ := Prod.mk.inj ran
          rfl
        | abandoned =>
          obtain ⟨-, rfl⟩ := Prod.mk.inj ran
          exact abandoned rfl
        | waits =>
          obtain ⟨-, rfl⟩ := Prod.mk.inj ran
          rw [waits rfl]
          cases caller <;> exact idle

theorem safepoint_register (h : Heap) (thread : ThreadId) (name : String) (stackTop : Addr) :
    (h.register thread name stackTop).2.safepoint = h.safepoint := by
  unfold register
  cases h.threads.current? thread with
  | some id => rfl
  | none =>
    cases h.threads.create { thread, name, stackTop } with
    | mk id threads =>
      simp only
      cases threads.insert id <;> rfl

theorem safepoint_unregister (h : Heap) (id : RecordId) :
    (h.unregister id).2.safepoint = h.safepoint := by
  unfold unregister
  cases h.threads.record? id with
  | none => rfl
  | some r =>
    simp only
    split
    · rfl
    · split <;> rfl

theorem idle_perform (idle : h.safepoint.phase = .idle) (operation : Operation) :
    (h.perform operation).2.safepoint.phase = .idle := by
  cases operation with
  | setFlags flags => exact idle
  | addRoot addr =>
    change (h.addRoot addr).safepoint.phase = .idle
    unfold addRoot
    split <;> exact idle
  | removeRoot addr =>
    change (h.removeRoot addr).safepoint.phase = .idle
    unfold removeRoot
    split <;> exact idle
  | root value => exact idle
  | setHandle id value =>
    change (h.setHandle id value).safepoint.phase = .idle
    unfold setHandle
    split <;> exact idle
  | dropHandle id =>
    change (h.dropHandle id).2.safepoint.phase = .idle
    unfold dropHandle
    split <;> exact idle
  | register thread name stackTop =>
    exact (congrArg (·.phase) (safepoint_register h thread name stackTop)).trans idle
  | unregister id => exact (congrArg (·.phase) (safepoint_unregister h id)).trans idle
  | setException id value => exact idle
  | setHandler id value => exact idle
  | enter c => exact idle
  | leave id => exact (phase_leave h id).trans idle
  | poll c => exact (phase_poll h c).trans idle
  | write addr w => exact idle
  | allocate env caller size kind => exact idle_allocate idle rfl
  | collect env caller patience => exact idle_collect idle rfl
  | maybeCollect env caller => exact idle_maybeCollect idle rfl
  | collectPolled env caller pollers => exact idle_collectPolled idle caller pollers
  | collectLeft env caller visitor => exact idle_collectLeft idle caller visitor
  | collectAllocating env caller visitor size kind =>
    exact idle_collectAllocating idle caller visitor size kind
  | dump env caller limit => exact idle_dump idle caller limit
  | query addr => exact idle
  | stats => exact idle

/-- Whatever is done to a heap, there is no stop under way between two operations. -/
theorem Reachable.idle {config : Config} (run : Reachable config h) :
    h.safepoint.phase = .idle := by
  induction run with
  | new made =>
    unfold Heap.new at made
    cases checked : config.check with
    | error e => simp [checked, bind, Except.bind] at made
    | ok u =>
      rw [checked] at made
      obtain rfl := Except.ok.inj made
      rfl
  | perform operation before admitted ih => exact idle_perform ih operation

end Idle

end Heap

end MarkSweep
