import MarkSweep.Heap.RootHistory
import MarkSweep.Proofs.HeapSteps

set_option autoImplicit false

namespace MarkSweep

structure Threads.SameMembers (t u : Threads) : Prop where
  registered : u.registered = t.registered
  records : ∀ id, (u.record? id).map (fun r => (r.thread, r.attached)) =
    (t.record? id).map (fun r => (r.thread, r.attached))

namespace Threads

variable {t u v : Threads}

theorem SameMembers.refl (t : Threads) : t.SameMembers t := ⟨rfl, fun _ => rfl⟩

theorem SameMembers.trans (first : t.SameMembers u) (second : u.SameMembers v) :
    t.SameMembers v where
  registered := second.registered.trans first.registered
  records id := (second.records id).trans (first.records id)

theorem sameMembers_modify (t : Threads) (id : RecordId) {f : ThreadRecord → ThreadRecord}
    (thread : ∀ r, (f r).thread = r.thread) (attached : ∀ r, (f r).attached = r.attached) :
    t.SameMembers (t.modify id f) where
  registered := rfl
  records j := by
    rw [record?_modify]
    split
    · cases t.record? j <;> simp [thread, attached]
    · rfl

theorem sameMembers_unpark (t : Threads) (id : RecordId) : t.SameMembers (t.unpark id).2 := by
  rw [snd_unpark]
  exact sameMembers_modify t id (fun _ => rfl) fun _ => rfl

end Threads

namespace Heap

/-- Whether two heaps have the same registry with the same owners. -/
structure SameOwners (h g : Heap) : Prop where
  roots : g.roots = h.roots
  handles : g.handles = h.handles
  nextHandle : g.nextHandle = h.nextHandle
  threads : h.threads.SameMembers g.threads

variable {h g k : Heap}

theorem SameOwners.refl (h : Heap) : h.SameOwners h := ⟨rfl, rfl, rfl, .refl _⟩

theorem SameOwners.trans (first : h.SameOwners g) (second : g.SameOwners k) : h.SameOwners k where
  roots := second.roots.trans first.roots
  handles := second.handles.trans first.handles
  nextHandle := second.nextHandle.trans first.nextHandle
  threads := first.threads.trans second.threads

theorem sameOwners_setException (h : Heap) (id : RecordId) (value : UInt64) :
    h.SameOwners (h.setException id value) :=
  ⟨rfl, rfl, rfl, Threads.sameMembers_modify _ id (fun _ => rfl) fun _ => rfl⟩

theorem sameOwners_setHandler (h : Heap) (id : RecordId) (value : UInt64) :
    h.SameOwners (h.setHandler id value) :=
  ⟨rfl, rfl, rfl, Threads.sameMembers_modify _ id (fun _ => rfl) fun _ => rfl⟩

theorem sameOwners_enter (h : Heap) (c : Caller) : h.SameOwners (h.enter c) :=
  ⟨rfl, rfl, rfl, Threads.sameMembers_modify _ c.record (fun _ => rfl) fun _ => rfl⟩

theorem sameOwners_unpark (h : Heap) (id : RecordId) : h.SameOwners (h.unpark id).2 :=
  ⟨rfl, rfl, rfl, Threads.sameMembers_unpark _ id⟩

theorem sameOwners_leave (h : Heap) (id : RecordId) : h.SameOwners (h.leave id).2 := by
  have before := sameOwners_unpark h id
  unfold leave
  cases leaving : h.unpark id with
  | mk result g =>
    rw [leaving] at before
    cases result with
    | error e => exact before
    | ok previous =>
      simp only
      split
      · exact before
      · exact before.trans
          ⟨rfl, rfl, rfl, Threads.sameMembers_modify _ id (fun _ => rfl) fun _ => rfl⟩

theorem sameOwners_poll (h : Heap) (c : Caller) : h.SameOwners (h.poll c).2 := by
  unfold poll
  split
  · have noted : h.SameOwners { h with safepoint := h.safepoint.recordPoll } :=
      ⟨rfl, rfl, rfl, .refl _⟩
    exact (noted.trans (sameOwners_enter _ c)).trans (sameOwners_leave _ c.record)
  · exact .refl h

theorem sameOwners_parkedBy (h : Heap) (caller : Option Caller) :
    h.SameOwners (h.parkedBy caller) := by
  cases caller with
  | none => exact .refl h
  | some c => exact sameOwners_enter h c

theorem sameOwners_resumedBy (h : Heap) (caller : Option Caller) :
    h.SameOwners (h.resumedBy caller) := by
  cases caller with
  | none => exact .refl h
  | some c => exact sameOwners_unpark h c.record

theorem sameOwners_foldl {β : Type} {f : Heap → β → Heap} (each : ∀ h b, SameOwners h (f h b))
    (bs : List β) (h : Heap) : h.SameOwners (bs.foldl f h) := by
  induction bs generalizing h with
  | nil => exact .refl h
  | cons b bs ih => exact (each h b).trans (ih (f h b))

section Collections

variable {α : Type} {env : Embedding} {caller : Option Caller} {patience : Patience}
  {others : Bystanders α}

/-- Whether what other threads do during a collection leaves roots to their owners. -/
structure Discreet (others : Bystanders α) : Prop where
  whileStopping : ∀ h, SameOwners h (others.whileStopping h)
  whileStopped : ∀ h, SameOwners h (others.whileStopped h).2

theorem discreet_none : Discreet Bystanders.none := ⟨.refl, .refl⟩

theorem Discreet.stoppedAt (discreet : Discreet others) (h : Heap) (p : Safepoint) :
    h.SameOwners (h.stoppedAt others.whileStopping p) := by
  have asked : h.SameOwners { h with safepoint := h.safepoint.request } := ⟨rfl, rfl, rfl, .refl _⟩
  have met := asked.trans (discreet.whileStopping _)
  exact ⟨met.roots, met.handles, met.nextHandle, met.threads⟩

theorem sameOwners_mark {result : Except Error MarkReport} (marking : h.mark env = (result, g)) :
    h.SameOwners g := by
  obtain ⟨m, -, rfl⟩ := mark_cases marking
  exact ⟨rfl, rfl, rfl, .refl _⟩

theorem Collects.sameOwners {result : Outcome (Option (CollectionReport × α))}
    (ended : h.Collects env others result g) (discreet : Discreet others) : h.SameOwners g := by
  cases ended with
  | waits => exact .refl h
  | abandoned p => exact discreet.stoppedAt h p
  | failed p marking =>
    have failed := (discreet.stoppedAt h p).trans (sameOwners_mark marking)
    exact ⟨failed.roots, failed.handles, failed.nextHandle, failed.threads⟩
  | finished p marking meeting =>
    have stopped := (discreet.stoppedAt h p).trans (sameOwners_mark marking)
    have after := stopped.trans (discreet.whileStopped _)
    rw [meeting] at after
    exact ⟨after.roots, after.handles, after.nextHandle, after.threads⟩

theorem sameOwners_collectAmong (discreet : Discreet others)
    {result : Outcome (Option (CollectionReport × α))}
    (done : h.collectAmong env caller patience others = (result, g)) : h.SameOwners g := by
  obtain ⟨-, rfl⟩ | ⟨result', f, ran, rfl, -⟩ := whileParked_cases done
  · exact .refl _
  · have collected := (collects_of_collectParked ran).sameOwners discreet
    exact ((sameOwners_parkedBy h caller).trans collected).trans (sameOwners_resumedBy f caller)

theorem sameOwners_collect {result : Outcome (Option CollectionReport)}
    (done : h.collect env caller patience = (result, g)) : h.SameOwners g := by
  obtain ⟨result', among, -⟩ := collect_cases done
  exact sameOwners_collectAmong discreet_none among

theorem sameOwners_maybeCollect {result : Outcome Bool}
    (done : h.maybeCollect env caller = (result, g)) : h.SameOwners g := by
  obtain ⟨-, rfl⟩ | ⟨collected, collecting, -⟩ := maybeCollect_cases done
  · exact .refl _
  · exact sameOwners_collect collecting

end Collections

section Allocation

variable {env : Embedding} {caller visitor : Option Caller} {size : Nat} {kind : BlockKind}

theorem sameOwners_allocateNow {host : Host} {result : Except Error Block}
    (asked : h.allocateNow host size kind = (result, g)) : h.SameOwners g := by
  obtain ⟨b, stats, -, rfl⟩ := allocateNow_cases asked
  exact ⟨rfl, rfl, rfl, .refl _⟩

theorem sameOwners_allocate {result : Outcome Block}
    (done : h.allocate env caller size kind = (result, g)) : h.SameOwners g := by
  cases allocates_of_allocate done with
  | stuck checked nothing => exact sameOwners_maybeCollect checked
  | answered checked asked =>
    exact (sameOwners_maybeCollect checked).trans (sameOwners_allocateNow asked)
  | stuckAgain checked asked collecting nothing =>
    have refused := (sameOwners_maybeCollect checked).trans (sameOwners_allocateNow asked)
    exact refused.trans (sameOwners_collect collecting)
  | answeredAgain checked asked collecting askedAgain =>
    have refused := (sameOwners_maybeCollect checked).trans (sameOwners_allocateNow asked)
    exact (refused.trans (sameOwners_collect collecting)).trans (sameOwners_allocateNow askedAgain)

theorem sameOwners_dump (h : Heap) (env : Embedding) (caller : Option Caller)
    (limit : Option Nat) : h.SameOwners (h.dump env caller limit).2 := by
  cases dumping : h.dump env caller limit with
  | mk result h' =>
    obtain ⟨-, rfl⟩ | ⟨result', g, ran, rfl, -⟩ := whileParked_cases dumping
    · exact .refl _
    · refine ((sameOwners_parkedBy h caller).trans ?_).trans (sameOwners_resumedBy g caller)
      cases stopping : (h.parkedBy caller).stopWorld .forever fun h => h with
      | mk stop s =>
        have same : (h.parkedBy caller).SameOwners s := by
          obtain ⟨-, rfl⟩ | ⟨-, p, rfl⟩ := stopWorld_cases stopping
          · exact .refl _
          · exact ⟨rfl, rfl, rfl, .refl _⟩
        rw [stopping] at ran
        cases stop <;>
        · obtain ⟨-, rfl⟩ := Prod.mk.inj ran
          exact ⟨same.roots, same.handles, same.nextHandle, same.threads⟩

theorem sameOwners_collectPolled (h : Heap) (env : Embedding) (caller : Option Caller)
    (pollers : List Caller) : h.SameOwners (h.collectPolled env caller pollers).2 := by
  have discreet : Discreet ({ whileStopping := fun h => pollers.foldl (fun h c => (h.poll c).2) h
                              whileStopped := fun h => ((), h) } : Bystanders Unit) :=
    ⟨sameOwners_foldl sameOwners_poll pollers, .refl⟩
  unfold collectPolled
  simp only
  split
  · next among => exact sameOwners_collectAmong discreet among
  · next g _ among =>
    have left := sameOwners_foldl (fun h c => sameOwners_leave h (Caller.record c)) pollers g
    exact (sameOwners_collectAmong discreet among).trans left

theorem sameOwners_collectLeft (h : Heap) (env : Embedding) (caller : Option Caller)
    (visitor : RecordId) : h.SameOwners (h.collectLeft env caller visitor).2 := by
  have discreet : Discreet ({ whileStopping := fun h => h
                              whileStopped := fun h => h.leave visitor } :
                              Bystanders (Except Error Leaving)) :=
    ⟨.refl, fun h => sameOwners_leave h visitor⟩
  unfold collectLeft
  simp only
  split
  · next g among =>
    exact (sameOwners_collectAmong discreet among).trans (sameOwners_leave g visitor)
  · next among => exact sameOwners_collectAmong discreet among

theorem sameOwners_collectAllocating (h : Heap) (env : Embedding) (caller visitor : Option Caller)
    (size : Nat) (kind : BlockKind) :
    h.SameOwners (h.collectAllocating env caller visitor size kind).2 := by
  have discreet : Discreet ({ whileStopping := fun h => h
                              whileStopped := fun h => ((), visitor.elim h h.enter) } :
                              Bystanders Unit) :=
    ⟨.refl, fun h => sameOwners_parkedBy h visitor⟩
  unfold collectAllocating
  simp only
  split
  · next report g among =>
    have collected :=
      (sameOwners_collectAmong discreet among).trans (sameOwners_resumedBy g visitor)
    cases asking : (g.resumedBy visitor).allocate env visitor size kind with
    | mk result k =>
      have allocated := collected.trans (sameOwners_allocate asking)
      unfold resumedBy at asking
      simp only [asking]
      exact allocated
  all_goals
    next among => exact sameOwners_collectAmong discreet among

end Allocation

end Heap

def Operation.isAboutRoots : Operation → Bool
  | .addRoot _ | .removeRoot _ | .root _ | .setHandle _ _ | .dropHandle _
  | .register _ _ _ | .unregister _ => true
  | _ => false

theorem Heap.sameOwners_perform (h : Heap) (operation : Operation)
    (other : operation.isAboutRoots = false) : h.SameOwners (h.perform operation).2 := by
  cases operation with
  | addRoot addr => simp [Operation.isAboutRoots] at other
  | removeRoot addr => simp [Operation.isAboutRoots] at other
  | root value => simp [Operation.isAboutRoots] at other
  | setHandle id value => simp [Operation.isAboutRoots] at other
  | dropHandle id => simp [Operation.isAboutRoots] at other
  | register thread name stackTop => simp [Operation.isAboutRoots] at other
  | unregister id => simp [Operation.isAboutRoots] at other
  | setFlags flags => exact ⟨rfl, rfl, rfl, .refl _⟩
  | setException id value => exact sameOwners_setException h id value
  | setHandler id value => exact sameOwners_setHandler h id value
  | enter c => exact sameOwners_enter h c
  | leave id => exact sameOwners_leave h id
  | poll c => exact sameOwners_poll h c
  | write addr w => exact ⟨rfl, rfl, rfl, .refl _⟩
  | allocate env caller size kind => exact sameOwners_allocate rfl
  | collect env caller patience => exact sameOwners_collect rfl
  | maybeCollect env caller => exact sameOwners_maybeCollect rfl
  | collectPolled env caller pollers => exact sameOwners_collectPolled h env caller pollers
  | collectLeft env caller visitor => exact sameOwners_collectLeft h env caller visitor
  | collectAllocating env caller visitor size kind =>
    exact sameOwners_collectAllocating h env caller visitor size kind
  | dump env caller limit => exact sameOwners_dump h env caller limit
  | query addr => exact .refl h
  | stats => exact .refl h

end MarkSweep
