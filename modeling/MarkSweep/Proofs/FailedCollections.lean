import MarkSweep.Proofs.HeapLikeness
import MarkSweep.Proofs.IdleSafepoint

set_option autoImplicit false

namespace MarkSweep

/-- Whether a thread that was running is as it was, but that it may have parked since. -/
def ThreadRecord.MayHaveParked (r s : ThreadRecord) : Prop :=
  r.depth = 0 ∧ s.depth ≤ 1 ∧ s = { r with depth := s.depth, snapshot := s.snapshot }

namespace Threads

theorem unpark_park (t : Threads) (id : RecordId) (now : Snapshot) :
    ((t.park id now).unpark id).2 = t.modify id fun r =>
      { r with snapshot := if r.depth = 0 then now else r.snapshot } := by
  rw [snd_unpark, park, modify_modify]
  rfl

theorem visible_unpark_park (t : Threads) (id : RecordId) (now : Snapshot) :
    ((t.park id now).unpark id).2.visible = t.visible := by
  rw [unpark_park, eq_comm, visible_eq_iff]
  refine (visible_eq_iff.1 rfl).modify_right fun r s _ looks => looks.trans ?_
  by_cases running : s.depth = 0
  · simp [ThreadRecord.visible, running]
  · rw [if_neg running]

theorem depth_modify (t : Threads) (id j : RecordId) (f : ThreadRecord → ThreadRecord) :
    (t.modify id f).depth j =
      if id = j then ((t.record? j).map fun r => (f r).depth).getD 0 else t.depth j := by
  unfold depth
  rw [record?_modify]
  split
  · rw [Option.map_map]
    rfl
  · rfl

theorem depth_unpark (t : Threads) (id j : RecordId) :
    (t.unpark id).2.depth j = if id = j then t.depth j - 1 else t.depth j := by
  rw [snd_unpark, depth_modify]
  split
  · unfold depth
    cases t.record? j <;> rfl
  · rfl

/-- Whether certain threads, all running at first, may have parked since, while the other records
look alike. -/
def Meanwhile (ids : List RecordId) : Threads → Threads → Prop :=
  Related fun id r s => if id ∈ ids then r.MayHaveParked s else r.visible = s.visible

section Meanwhile

variable {ids : List RecordId} {t u : Threads} {id : RecordId}

theorem meanwhile_self (running : ∀ id ∈ ids, t.depth id = 0) : Meanwhile ids t t := by
  refine ⟨rfl, fun id => ?_⟩
  cases found : t.record? id with
  | none => exact .inl ⟨rfl, rfl⟩
  | some r =>
    refine .inr ⟨r, r, rfl, rfl, ?_⟩
    split
    · next mem =>
      have depth : r.depth = 0 := by simpa [depth, found] using running id mem
      exact ⟨depth, by omega, rfl⟩
    · rfl

theorem Meanwhile.park (meanwhile : Meanwhile ids t u) (mem : id ∈ ids) (depth : u.depth id = 0)
    (now : Snapshot) : Meanwhile ids t (u.park id now) := by
  refine meanwhile.modify_right fun r s found kin => ?_
  rw [if_pos mem] at kin ⊢
  obtain ⟨running, -, same⟩ := kin
  have here : s.depth = 0 := by simpa [Threads.depth, found] using depth
  refine ⟨running, ?_, ?_⟩
  · simp [ThreadRecord.park, here]
  · rw [same]
    rfl

theorem Meanwhile.unpark_right (meanwhile : Meanwhile ids t u) (mem : id ∈ ids) :
    Meanwhile ids t (u.unpark id).2 := by
  rw [snd_unpark]
  refine meanwhile.modify_right fun r s _ kin => ?_
  rw [if_pos mem] at kin ⊢
  obtain ⟨running, shallow, same⟩ := kin
  refine ⟨running, ?_, ?_⟩
  · exact Nat.le_trans (Nat.sub_le _ _) shallow
  · rw [same]

theorem Meanwhile.unpark (meanwhile : Meanwhile ids t u) (other : id ∉ ids) :
    Meanwhile ids (t.unpark id).2 (u.unpark id).2 := by
  rw [snd_unpark, snd_unpark]
  refine meanwhile.modify fun r s _ _ kin => ?_
  rw [if_neg other] at kin ⊢
  exact ThreadRecord.visible_unpark kin

theorem Meanwhile.depth_le (meanwhile : Meanwhile ids t u) (mem : id ∈ ids) : u.depth id ≤ 1 := by
  unfold depth
  obtain ⟨-, hu⟩ | ⟨r, s, -, hu, kin⟩ := meanwhile.records id
  · simp [hu]
  · rw [if_pos mem] at kin
    simpa [hu] using kin.2.1

theorem Meanwhile.visible_eq (meanwhile : Meanwhile ids t u)
    (running : ∀ id ∈ ids, u.depth id = 0) : u.visible = t.visible := by
  refine (visible_eq_iff.2 ⟨meanwhile.registered, fun id => ?_⟩).symm
  obtain ⟨ht, hu⟩ | ⟨r, s, ht, hu, kin⟩ := meanwhile.records id
  · exact .inl ⟨ht, hu⟩
  · refine .inr ⟨r, s, ht, hu, ?_⟩
    split at kin
    · next mem =>
      have shallow : s.depth = 0 := by simpa [depth, hu] using running id mem
      obtain ⟨before, -, same⟩ := kin
      rw [same, shallow]
      simp [ThreadRecord.visible, before]
    · exact kin

theorem Meanwhile.foldl_unpark (meanwhile : Meanwhile ids t u) {back : List RecordId}
    (mem : ∀ id ∈ back, id ∈ ids) :
    Meanwhile ids t (back.foldl (fun t id => (t.unpark id).2) u) ∧
      ∀ id, (back.foldl (fun t id => (t.unpark id).2) u).depth id ≤ u.depth id ∧
        (id ∈ back → (back.foldl (fun t id => (t.unpark id).2) u).depth id ≤ u.depth id - 1) := by
  -- One lets a thread out, the others do not put it back in.
  induction back generalizing u with
  | nil => exact ⟨meanwhile, fun id => ⟨Nat.le_refl _, nofun⟩⟩
  | cons first rest ih =>
    rw [List.forall_mem_cons] at mem
    obtain ⟨later, depths⟩ := ih (meanwhile.unpark_right mem.1) mem.2
    refine ⟨later, fun id => ?_⟩
    obtain ⟨low, lower⟩ := depths id
    rw [depth_unpark] at low lower
    rw [List.foldl_cons, List.mem_cons]
    split at low
    · exact ⟨Nat.le_trans low (Nat.sub_le _ _), fun _ => low⟩
    · next other =>
      rw [if_neg other] at lower
      exact ⟨low, fun mem => lower (mem.resolve_left fun same => other same.symm)⟩

end Meanwhile

end Threads

namespace Heap

def SameButThreads (h g : Heap) : Prop :=
  g = { h with threads := g.threads, safepoint := g.safepoint }

section Polling

variable {h g : Heap}

theorem SameButThreads.trans {k : Heap} (first : h.SameButThreads g)
    (second : g.SameButThreads k) : h.SameButThreads k := by
  unfold SameButThreads at first second ⊢
  rw [second, first]

theorem SameButThreads.alike (same : h.SameButThreads g)
    (threads : g.threads.visible = h.threads.visible)
    (phase : g.safepoint.phase = h.safepoint.phase) : g.Alike h := by
  unfold SameButThreads at same
  rw [same]
  exact { Alike.refl h with threads := threads, phase := phase }

theorem sameButThreads_leave (h : Heap) (id : RecordId) : h.SameButThreads (h.leave id).2 := by
  unfold SameButThreads leave unpark
  cases h.threads.unpark id with
  | mk result threads =>
    cases result with
    | error e => rfl
    | ok previous =>
      simp only
      split <;> rfl

theorem sameButThreads_poll (h : Heap) (c : Caller) : h.SameButThreads (h.poll c).2 := by
  unfold poll
  split
  · have polled : h.SameButThreads ({ h with safepoint := h.safepoint.recordPoll }.enter c) := rfl
    exact polled.trans (sameButThreads_leave _ c.record)
  · rfl

theorem sameButThreads_foldl {β : Type} {f : Heap → β → Heap}
    (step : ∀ (h : Heap) (b : β), h.SameButThreads (f h b)) (bs : List β) (h : Heap) :
    h.SameButThreads (bs.foldl f h) := by
  induction bs generalizing h with
  | nil => rfl
  | cons b bs ih => exact (step h b).trans (ih (f h b))

theorem threads_leave (idle : h.safepoint.phase = .idle) (id : RecordId) :
    (h.leave id).2.threads = (h.threads.unpark id).2 := by
  have calm : h.safepoint.stopRequested = false := by simp [Safepoint.stopRequested, idle]
  unfold leave unpark
  cases h.threads.unpark id with
  | mk result threads => cases result <;> simp [calm]

theorem threads_leave_of_stopRequested (stopping : h.safepoint.stopRequested = true)
    (id : RecordId) : (h.leave id).2.threads =
      if h.threads.depth id = 1 then h.threads else (h.threads.unpark id).2 := by
  have popped := h.threads.fst_unpark id
  have back : h.threads.depth id ≠ 0 →
      (h.threads.unpark id).2.modify id ThreadRecord.repark = h.threads := Threads.repark_unpark
  unfold leave unpark
  cases unparking : h.threads.unpark id with
  | mk result threads =>
    rw [unparking] at popped back
    simp only at popped back ⊢
    subst popped
    by_cases out : h.threads.depth id = 0
    · simp [out]
    · rw [if_neg out]
      by_cases outermost : h.threads.depth id = 1
      · simp [outermost, stopping, back out]
      · have deep : 1 < h.threads.depth id := by omega
        simp [outermost, deep]

theorem threads_poll (stopping : h.safepoint.stopRequested = true) (c : Caller) :
    (h.poll c).2.threads =
      if h.threads.depth c.record = 0 then h.threads.park c.record c.now else h.threads := by
  have parked : (h.threads.park c.record c.now).depth c.record =
      ((h.threads.record? c.record).map fun r => r.depth + 1).getD 0 := by
    rw [Threads.park, Threads.depth_modify, if_pos rfl]
    rfl
  have entered := threads_leave_of_stopRequested
    (h := { h with safepoint := h.safepoint.recordPoll }.enter c) stopping c.record
  unfold poll
  rw [if_pos stopping, entered]
  change (if (h.threads.park c.record c.now).depth c.record = 1 then _ else
    ((h.threads.park c.record c.now).unpark c.record).2) = _
  rw [parked, Threads.unpark_park]
  unfold Threads.depth
  cases found : h.threads.record? c.record with
  | none =>
    rw [if_neg (by simp), if_pos (by simp)]
    refine Threads.modify_congr fun r there => ?_
    simp [found] at there
  | some r =>
    simp only [Option.map_some, Option.getD_some]
    by_cases running : r.depth = 0
    · rw [if_pos (by omega), if_pos running]
      rfl
    · rw [if_neg (by omega), if_neg running]
      refine Threads.modify_eq_self fun r' there => ?_
      obtain rfl := Option.some.inj (found.symm.trans there)
      rw [if_neg running]

theorem meanwhile_foldl_poll {ids : List RecordId} {t : Threads}
    (stopping : h.safepoint.stopRequested = true)
    (meanwhile : Threads.Meanwhile ids t h.threads) {pollers : List Caller}
    (mem : ∀ c ∈ pollers, c.record ∈ ids) :
    Threads.Meanwhile ids t (pollers.foldl (fun h c => (h.poll c).2) h).threads := by
  induction pollers generalizing h with
  | nil => exact meanwhile
  | cons c pollers ih =>
    rw [List.forall_mem_cons] at mem
    refine ih ?_ ?_ mem.2
    · rw [Safepoint.stopRequested, phase_poll]
      exact stopping
    · rw [threads_poll stopping]
      split
      · next running => exact meanwhile.park mem.1 running c.now
      · exact meanwhile

theorem threads_foldl_leave (idle : h.safepoint.phase = .idle) (callers : List Caller) :
    (callers.foldl (fun h c => (h.leave c.record).2) h).threads =
      (callers.map (·.record)).foldl (fun t id => (t.unpark id).2) h.threads := by
  induction callers generalizing h with
  | nil => rfl
  | cons c callers ih =>
    rw [List.foldl_cons, List.map_cons, List.foldl_cons, ← threads_leave idle]
    exact ih ((phase_leave h c.record).trans idle)

/-- The heap when a collection that came to nothing is over, and the threads that polled meanwhile
have yet to come back. -/
def afterPolls (caller : Option Caller) (pollers : List Caller) (h : Heap) : Heap :=
  ((h.parkedBy caller).stoppedAt (fun h => pollers.foldl (fun h c => (h.poll c).2) h)
    {}).resumedBy caller

theorem exists_meanwhile (h : Heap) (caller : Option Caller) {pollers : List Caller}
    (running : ∀ c ∈ pollers, h.threads.depth c.record = 0) :
    ∃ t : Threads, t.visible = h.threads.visible ∧
      Threads.Meanwhile (pollers.map (·.record)) t (h.afterPolls caller pollers).threads := by
  have mem : ∀ c ∈ pollers, c.record ∈ pollers.map (·.record) :=
    fun c hc => List.mem_map_of_mem hc
  have resting : ∀ id ∈ pollers.map (·.record), h.threads.depth id = 0 := by
    intro id hid
    obtain ⟨c, hc, rfl⟩ := List.mem_map.1 hid
    exact running c hc
  have self := Threads.meanwhile_self resting
  have polled : ∀ {t : Threads}, Threads.Meanwhile (pollers.map (·.record)) t
      (h.parkedBy caller).threads → Threads.Meanwhile (pollers.map (·.record)) t
        ((h.parkedBy caller).stoppedAt (fun h => pollers.foldl (fun h c => (h.poll c).2) h)
          {}).threads := by
    intro t meanwhile
    exact meanwhile_foldl_poll
      (h := { h.parkedBy caller with safepoint := (h.parkedBy caller).safepoint.request }) rfl
      meanwhile mem
  cases caller with
  | none => exact ⟨h.threads, rfl, polled self⟩
  | some c =>
    -- A caller that polls too is one of the threads that may have parked. Any other is compared
    -- with itself, parked and back again.
    by_cases one : c.record ∈ pollers.map (·.record)
    · have parked := polled (self.park one (resting _ one) c.now)
      exact ⟨h.threads, rfl, parked.unpark_right one⟩
    · have others : ∀ id ∈ pollers.map (·.record),
          (h.threads.park c.record c.now).depth id = 0 := by
        intro id hid
        have apart : c.record ≠ id := fun same => one (same ▸ hid)
        rw [Threads.park, Threads.depth_modify, if_neg apart]
        exact resting id hid
      have parked := polled (Threads.meanwhile_self others)
      exact ⟨_, Threads.visible_unpark_park h.threads c.record c.now, parked.unpark one⟩

theorem phase_afterPolls (h : Heap) (caller : Option Caller) (pollers : List Caller) :
    (h.afterPolls caller pollers).safepoint.phase = .idle := phase_resumedBy _ caller

theorem sameButThreads_afterPolls (h : Heap) (caller : Option Caller) (pollers : List Caller) :
    h.SameButThreads (h.afterPolls caller pollers) := by
  have parked : h.SameButThreads
      { h.parkedBy caller with safepoint := (h.parkedBy caller).safepoint.request } := by
    cases caller <;> rfl
  have polled := parked.trans (sameButThreads_foldl sameButThreads_poll pollers _)
  cases caller <;> exact polled.trans rfl

theorem alike_of_polled (idle : h.safepoint.phase = .idle) (caller : Option Caller)
    (pollers : List Caller) (running : ∀ c ∈ pollers, h.threads.depth c.record = 0) :
    (pollers.foldl (fun h c => (h.leave c.record).2) (h.afterPolls caller pollers)).Alike h := by
  obtain ⟨t, looks, meanwhile⟩ := exists_meanwhile h caller running
  have quiet := phase_afterPolls h caller pollers
  have left := sameButThreads_foldl (fun h (c : Caller) => sameButThreads_leave h c.record) pollers
    (h.afterPolls caller pollers)
  obtain ⟨later, depths⟩ := meanwhile.foldl_unpark fun id mem => mem
  rw [← threads_foldl_leave quiet] at later depths
  refine ((sameButThreads_afterPolls h caller pollers).trans left).alike ?_ ?_
  · refine (later.visible_eq fun id mem => ?_).trans looks
    have shallow := meanwhile.depth_le mem
    have out := (depths id).2 mem
    omega
  · rw [phase_foldl_leave, quiet, idle]

end Polling

end Heap

def Error.IsStackBounds : Error → Prop
  | .corruption (.stackBounds _ _ _) => True
  | _ => False

/-- Whether a collection came to nothing: the world did not stop in time, or there was a stack
whose bounds cannot be right. -/
def Outcome.CameToNothing {α : Type} : Outcome (Option α) → Prop
  | .done none => True
  | .failed e => e.IsStackBounds
  | _ => False

def Answer.CameToNothing : Answer → Prop
  | .collected result => result.CameToNothing
  | .wasDue (.failed e) => e.IsStackBounds
  | .collectedLeaving result => result.CameToNothing
  | .collectedAllocating result => result.CameToNothing
  | _ => False

theorem Outcome.cameToNothing_of_map {α β : Type} {f : α → β} {result : Outcome (Option α)}
    (nothing : (result.map (·.map f)).CameToNothing) : result.CameToNothing := by
  cases result with
  | waits => exact nothing
  | failed e => exact nothing
  | done answer =>
    cases answer with
    | none => trivial
    | some a => exact nothing

namespace Heap

section Attempts

variable {α : Type} {env : Embedding} {caller : Option Caller} {patience : Patience}
  {others : Bystanders α} {h h' : Heap}

theorem whileParked_of_cameToNothing {operation : Heap → Outcome (Option α) × Heap}
    {result : Outcome (Option α)} (done : h.whileParked caller operation = (result, h'))
    (nothing : result.CameToNothing) :
    ∃ g, operation (h.parkedBy caller) = (result, g) ∧ h' = g.resumedBy caller := by
  cases caller with
  | none => exact ⟨h', done, rfl⟩
  | some c =>
    unfold whileParked at done
    simp only at done
    split at done
    · obtain ⟨rfl, -⟩ := Prod.mk.inj done
      exact False.elim nothing
    · next result' g ended running =>
      have popped := g.threads.fst_unpark c.record
      cases unparking : g.unpark c.record with
      | mk left g' =>
        have here : (g.threads.unpark c.record).1 = left := congrArg Prod.fst unparking
        have parked : g.resumedBy (some c) = g' := congrArg Prod.snd unparking
        rw [unparking] at done
        rw [here] at popped
        cases left with
        | error e =>
          obtain ⟨rfl, -⟩ := Prod.mk.inj done
          split at popped
          · obtain rfl := Except.error.inj popped
            exact False.elim nothing
          · simp at popped
        | ok previous =>
          obtain ⟨rfl, rfl⟩ := Prod.mk.inj done
          exact ⟨g, running, parked.symm⟩

theorem alike_of_collectParked (trusted : env.IsSound)
    {result : Outcome (Option (CollectionReport × α))}
    (collected : h.collectParked env patience others = (result, h'))
    (nothing : result.CameToNothing) : h'.Alike (h.stoppedAt others.whileStopping {}) := by
  have quiet : h'.safepoint.phase = .idle := by
    obtain ⟨rfl, -⟩ | ended := idle_collectParked collected
    · exact False.elim nothing
    · exact ended
  cases collects_of_collectParked collected with
  | waits => exact False.elim nothing
  | abandoned p => exact { Alike.refl _ with phase := quiet }
  | failed p marking =>
    -- The mark phase got as far as it got, but it changed marks and its stack only.
    have same := clearMarks_mark trusted marking
    obtain ⟨m, -, rfl⟩ := mark_cases marking
    exact { Alike.refl (h.stoppedAt others.whileStopping p) with arena := same, phase := rfl }
  | finished p marking meeting => exact False.elim nothing

theorem alike_of_collectAmong (trusted : env.IsSound)
    {result : Outcome (Option (CollectionReport × α))}
    (collected : h.collectAmong env caller patience others = (result, h'))
    (nothing : result.CameToNothing) :
    h'.Alike (((h.parkedBy caller).stoppedAt others.whileStopping {}).resumedBy caller) := by
  obtain ⟨g, ran, rfl⟩ := whileParked_of_cameToNothing collected nothing
  exact alike_resumedBy (alike_of_collectParked trusted ran nothing) caller

theorem alike_of_unpolled (idle : h.safepoint.phase = .idle) (trusted : env.IsSound)
    (still : others.whileStopping = fun h => h)
    {result : Outcome (Option (CollectionReport × α))}
    (collected : h.collectAmong env caller patience others = (result, h'))
    (nothing : result.CameToNothing) : h'.Alike h := by
  have ended := alike_of_collectAmong trusted collected nothing
  rw [still] at ended
  have unpolled := alike_of_polled idle caller [] nofun
  exact ended.trans unpolled

theorem alike_of_collect (idle : h.safepoint.phase = .idle) (trusted : env.IsSound)
    {result : Outcome (Option CollectionReport)}
    (collected : h.collect env caller patience = (result, h'))
    (nothing : result.CameToNothing) : h'.Alike h := by
  obtain ⟨result', among, rfl⟩ := collect_cases collected
  exact alike_of_unpolled idle trusted rfl among (Outcome.cameToNothing_of_map nothing)

theorem alike_of_maybeCollect (idle : h.safepoint.phase = .idle) (trusted : env.IsSound)
    {e : Error} (checked : h.maybeCollect env caller = (.failed e, h'))
    (nothing : e.IsStackBounds) : h'.Alike h := by
  obtain ⟨done, -⟩ | ⟨collected, collecting, failed⟩ := maybeCollect_cases checked
  · simp at done
  · cases collected with
    | waits => simp [Outcome.map] at failed
    | done answer => simp [Outcome.map] at failed
    | failed e' =>
      obtain rfl := Outcome.failed.inj failed
      exact alike_of_collect idle trusted collecting nothing

theorem alike_of_collectPolled (idle : h.safepoint.phase = .idle) (trusted : env.IsSound)
    {pollers : List Caller} (running : ∀ c ∈ pollers, h.threads.depth c.record = 0)
    (nothing : (h.collectPolled env caller pollers).1.CameToNothing) :
    (h.collectPolled env caller pollers).2.Alike h := by
  unfold collectPolled at nothing ⊢
  simp only at nothing ⊢
  split at nothing
  · exact False.elim nothing
  · next result g _ collecting =>
    have ended := alike_of_collectAmong trusted collecting (Outcome.cameToNothing_of_map nothing)
    have left := alike_foldl (fun alike (c : Caller) => (agree_leave alike c.record).2) pollers
      ended
    exact left.trans (alike_of_polled idle caller pollers running)

theorem alike_of_collectLeft (idle : h.safepoint.phase = .idle) (trusted : env.IsSound)
    {visitor : RecordId} (nothing : (h.collectLeft env caller visitor).1.CameToNothing) :
    (h.collectLeft env caller visitor).2.Alike h := by
  unfold collectLeft at nothing ⊢
  simp only at nothing ⊢
  split at nothing
  · exact False.elim nothing
  · next result g _ collecting =>
    exact alike_of_unpolled idle trusted rfl collecting (Outcome.cameToNothing_of_map nothing)

theorem alike_of_collectAllocating (idle : h.safepoint.phase = .idle) (trusted : env.IsSound)
    {visitor : Option Caller} {size : Nat} {kind : BlockKind}
    (nothing : (h.collectAllocating env caller visitor size kind).1.CameToNothing) :
    (h.collectAllocating env caller visitor size kind).2.Alike h := by
  unfold collectAllocating at nothing ⊢
  simp only at nothing ⊢
  split at nothing
  · exact False.elim nothing
  · next collecting => exact alike_of_unpolled idle trusted rfl collecting trivial
  · next collecting => exact alike_of_unpolled idle trusted rfl collecting nothing
  · exact False.elim nothing

end Attempts

def OnlyRunningPoll (h : Heap) : Operation → Prop
  | .collectPolled _ _ pollers => ∀ c ∈ pollers, h.threads.depth c.record = 0
  | _ => True

theorem alike_of_cameToNothing {h : Heap} (idle : h.safepoint.phase = .idle)
    {operation : Operation} (admitted : h.Admits operation)
    (running : h.OnlyRunningPoll operation)
    (nothing : (h.perform operation).1.CameToNothing) : (h.perform operation).2.Alike h := by
  cases operation with
  | collect env caller patience => exact alike_of_collect idle admitted.1 rfl nothing
  | maybeCollect env caller =>
    cases checked : h.maybeCollect env caller with
    | mk result h' =>
      simp only [perform, checked, Prod.map_apply] at nothing ⊢
      cases result with
      | failed e => exact alike_of_maybeCollect idle admitted.1 checked nothing
      | done due => exact False.elim nothing
      | waits => exact False.elim nothing
  | collectPolled env caller pollers =>
    exact alike_of_collectPolled idle admitted.1 running nothing
  | collectLeft env caller visitor => exact alike_of_collectLeft idle admitted.1 nothing
  | collectAllocating env caller visitor size kind =>
    exact alike_of_collectAllocating idle admitted.1 nothing
  | _ => exact False.elim nothing

/-- Whether a heap has come out of an attempt as it went in, so that nobody can ever tell that there
was one. -/
structure Unscathed (before after : Heap) : Prop where
  arena : after.arena.clearMarks = before.arena.clearMarks
  arenaStats : after.arena.stats = before.arena.stats
  roots : after.roots = before.roots
  handles : after.handles = before.handles
  stats : after.stats = before.stats
  idle : after.safepoint.phase = .idle
  /-- The counters of 32 bits agree with this if the depths before are below 2^32 - 1: the caller and
  those who poll are one scope deeper in between. -/
  depth : ∀ id, after.threads.depth id = before.threads.depth id
  /-- Whatever is done next gives the same answers, leaves the same blocks and leads to heaps that
  are alike. -/
  later : ∀ operations : List Operation, (∀ operation ∈ operations, operation.IgnoresMarks) →
    after.answers operations = before.answers operations ∧
      (∀ b, (after.performAll operations).arena.Holds b ↔
        (before.performAll operations).arena.Holds b) ∧
      (after.performAll operations).Alike (before.performAll operations)

theorem unscathed_of_alike {h h' : Heap} (idle : h.safepoint.phase = .idle) (alike : h'.Alike h) :
    h.Unscathed h' where
  arena := alike.arena
  arenaStats := by rw [← Arena.stats_clearMarks, alike.arena, Arena.stats_clearMarks]
  roots := alike.roots
  handles := alike.handles
  stats := alike.stats
  idle := alike.phase.trans idle
  depth := Threads.depth_congr alike.threads
  later := by
    intro operations blind
    obtain ⟨answers, alike'⟩ := answers_congr alike blind
    exact ⟨answers, Arena.holds_congr alike'.arena, alike'⟩

/-- A collection that comes to nothing leaves no trace, whatever it did before it gave up. -/
theorem unscathed_of_cameToNothing {config : Config} {h : Heap} (run : Reachable config h)
    {operation : Operation} (admitted : h.Admits operation)
    (running : h.OnlyRunningPoll operation)
    (nothing : (h.perform operation).1.CameToNothing) : h.Unscathed (h.perform operation).2 :=
  unscathed_of_alike run.idle (alike_of_cameToNothing run.idle admitted running nothing)

end Heap

theorem Embedding.ignoresMarks_sample : Embedding.sample.IgnoresMarks := by
  have blind : Host.single.IgnoresMarks := by
    intro a size attempt
    simp [Host.single, Arena.clearMarks]
  exact ⟨blind, blind⟩

namespace Heap

def strayCaller : Caller := { record := 0, now := { sp := 8192 } }

/-- The block with a handle has its mark and waits for its scan when the stray thread is met. The
next collection does not know of it. -/
theorem unscathed_of_cameToNothing_stray :
    let attempt := Operation.collect .sample (some strayCaller) .forever
    let next := [Operation.allocate .sample (some sampleCaller) 4096 .typed,
      .collect .sample (some sampleCaller) .forever, .stats]
    Reachable (.testing 0) sample ∧ sample.Admits attempt ∧ sample.OnlyRunningPoll attempt ∧
      (sample.perform attempt).1 =
        .collected (.failed (.corruption (.stackBounds "main" 8192 4112))) ∧
      (sample.perform attempt).2.pending.entries = [65536] ∧
      sample.Unscathed (sample.perform attempt).2 ∧
      (sample.perform attempt).2.answers next = sample.answers next := by
  intro attempt next
  have admitted : sample.Admits attempt := by
    refine ⟨Embedding.isSound_sample, ?_⟩
    rintro c ⟨⟩
    exact ⟨by decide +kernel, rfl⟩
  have failed : (sample.collect .sample (some strayCaller) .forever).1 =
      .failed (.corruption (.stackBounds "main" 8192 4112)) := by
    decide +kernel
  have answer := congrArg Answer.collected failed
  have waiting : (sample.collect .sample (some strayCaller) .forever).2.pending.entries =
      [65536] := by
    decide +kernel
  have nothing : (sample.perform attempt).1.CameToNothing := by
    change (Answer.collected (sample.collect .sample (some strayCaller) .forever).1).CameToNothing
    rw [failed]
    trivial
  have unscathed := unscathed_of_cameToNothing reachable_sample admitted trivial nothing
  have blind : ∀ operation ∈ next, operation.IgnoresMarks := by
    intro operation mem
    simp only [next, List.mem_cons, List.not_mem_nil, or_false] at mem
    obtain rfl | rfl | rfl := mem
    · exact Embedding.ignoresMarks_sample
    · trivial
    · trivial
  exact ⟨reachable_sample, admitted, trivial, answer, waiting, unscathed,
    (unscathed.later next blind).1⟩

end Heap

end MarkSweep
