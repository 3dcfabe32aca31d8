import MarkSweep.Heap.Log
import MarkSweep.Proofs.HeapLikeness

set_option autoImplicit false

namespace MarkSweep

namespace Threads

variable {t u : Threads}

theorem enrolled_of_same (enrolled : t.Enrolled) (same : u.registered = t.registered)
    (kept : ∀ id r, t.record? id = some r → ∃ r', u.record? id = some r' ∧ r'.thread = r.thread) :
    u.Enrolled where
  distinct := same ▸ enrolled.distinct
  recorded := by
    intro e he
    obtain ⟨r, found, known⟩ := enrolled.recorded e (same ▸ he)
    obtain ⟨r', found', thread⟩ := kept _ r found
    exact ⟨r', found', thread.trans known⟩

theorem enrolled_modify (enrolled : t.Enrolled) (id : RecordId) {f : ThreadRecord → ThreadRecord}
    (known : ∀ r, (f r).thread = r.thread) : (t.modify id f).Enrolled := by
  refine enrolled_of_same enrolled rfl fun j r found => ?_
  rw [record?_modify, found]
  split
  · exact ⟨f r, rfl, known r⟩
  · exact ⟨r, rfl, rfl⟩

theorem enrolled_unpark (enrolled : t.Enrolled) (id : RecordId) : (t.unpark id).2.Enrolled := by
  rw [snd_unpark]
  exact enrolled_modify enrolled id fun _ => rfl

theorem enrolled_create (enrolled : t.Enrolled) (r : ThreadRecord) : (t.create r).2.Enrolled := by
  refine enrolled_of_same enrolled rfl fun id r' found => ⟨r', ?_, rfl⟩
  have inside := (Array.getElem?_eq_some_iff.1 found).1
  change (t.records.push r)[id]? = some r'
  rw [Array.getElem?_push, if_neg (Nat.ne_of_lt inside)]
  exact found

theorem enrolled_insert (enrolled : t.Enrolled) {id : RecordId} (done : t.insert id = .ok u) :
    u.Enrolled := by
  unfold insert at done
  cases found : t.record? id with
  | none =>
    rw [found] at done
    obtain rfl := Except.ok.inj done
    exact enrolled
  | some r =>
    simp only [found] at done
    cases known : t.current? r.thread with
    | some other => simp [known] at done
    | none =>
      rw [known] at done
      obtain rfl := Except.ok.inj done
      constructor
      · have unknown := List.lookup_eq_none_iff.1 known
        rw [List.map_append, List.nodup_append]
        refine ⟨enrolled.distinct, List.nodup_singleton _, ?_⟩
        rintro i hi j hj rfl
        obtain ⟨e, he, rfl⟩ := List.mem_map.1 hi
        obtain same : e.1 = r.thread := by simpa using hj
        simpa [same] using unknown e he
      · intro e he
        obtain he | he := List.mem_append.1 he
        · exact enrolled.recorded e he
        · obtain rfl := List.mem_singleton.1 he
          exact ⟨r, found, rfl⟩

theorem enrolled_remove (enrolled : t.Enrolled) {thread : ThreadId} {id : RecordId}
    (done : t.remove thread = .ok (id, u)) : u.Enrolled := by
  unfold remove at done
  cases known : t.current? thread with
  | none => simp [known] at done
  | some j =>
    rw [known] at done
    obtain ⟨-, rfl⟩ := Prod.mk.inj (Except.ok.inj done)
    exact {
      distinct := enrolled.distinct.sublist (List.filter_sublist.map _)
      recorded := fun e he => enrolled.recorded e (List.mem_of_mem_filter he) }

end Threads

namespace Event

theorem blocks_append (later earlier : List Event) :
    blocks (later ++ earlier) = blocks later ++ blocks earlier := by
  induction later with
  | nil => rfl
  | cons event later ih => cases event <;> simp [blocks, ih]

end Event

namespace Heap

variable {h g h' : Heap}

theorem Quiet.refl (h : Heap) : h.Quiet h := ⟨rfl, rfl, rfl, id⟩

theorem Quiet.trans (first : h.Quiet g) (second : g.Quiet h') : h.Quiet h' where
  arena := second.arena.trans first.arena
  stats := second.stats.trans first.stats
  tally := second.tally.trans first.tally
  threads enrolled := second.threads (first.threads enrolled)

theorem Steps.single {events : List Event} (step : h.Step events h') : h.Steps events h' := by
  simpa using Steps.refl.tail step

theorem Steps.trans {earlier later : List Event} (first : h.Steps earlier g)
    (second : g.Steps later h') : h.Steps (later ++ earlier) h' := by
  induction second with
  | refl => exact first
  | tail before step ih => simpa using ih.tail step

theorem Steps.quiet {events : List Event} (steps : h.Steps events g) (quiet : g.Quiet h') :
    h.Steps events h' := steps.tail (.quiet quiet)

theorem Quiet.steps (quiet : h.Quiet h') : h.Steps [] h' := .single (.quiet quiet)

section Roots

theorem quiet_setFlags (h : Heap) (flags : Flags) : h.Quiet (h.setFlags flags) :=
  ⟨rfl, rfl, rfl, id⟩

theorem quiet_root (h : Heap) (value : UInt64) : h.Quiet (h.root value).2 := ⟨rfl, rfl, rfl, id⟩

theorem quiet_addRoot (h : Heap) (addr : Addr) : h.Quiet (h.addRoot addr) := by
  unfold addRoot
  split <;> exact ⟨rfl, rfl, rfl, id⟩

theorem quiet_removeRoot (h : Heap) (addr : Addr) : h.Quiet (h.removeRoot addr) := by
  unfold removeRoot
  split <;> exact ⟨rfl, rfl, rfl, id⟩

theorem quiet_setHandle (h : Heap) (id : Nat) (value : UInt64) :
    h.Quiet (h.setHandle id value) := by
  unfold setHandle
  split <;> exact ⟨rfl, rfl, rfl, fun enrolled => enrolled⟩

theorem quiet_dropHandle (h : Heap) (id : Nat) : h.Quiet (h.dropHandle id).2 := by
  unfold dropHandle
  split <;> exact ⟨rfl, rfl, rfl, fun enrolled => enrolled⟩

end Roots

section Threads

theorem quiet_setException (h : Heap) (id : RecordId) (value : UInt64) :
    h.Quiet (h.setException id value) :=
  ⟨rfl, rfl, rfl, fun enrolled => Threads.enrolled_modify enrolled id fun _ => rfl⟩

theorem quiet_setHandler (h : Heap) (id : RecordId) (value : UInt64) :
    h.Quiet (h.setHandler id value) :=
  ⟨rfl, rfl, rfl, fun enrolled => Threads.enrolled_modify enrolled id fun _ => rfl⟩

theorem quiet_register (h : Heap) (thread : ThreadId) (name : String) (stackTop : Addr) :
    h.Quiet (h.register thread name stackTop).2 := by
  unfold register
  cases h.threads.current? thread with
  | some id => exact Quiet.refl h
  | none =>
    cases created : h.threads.create { thread, name, stackTop } with
    | mk id threads =>
      have before : h.threads.Enrolled → threads.Enrolled := fun enrolled => by
        have after := Threads.enrolled_create enrolled { thread, name, stackTop }
        rwa [created] at after
      simp only
      cases inserted : threads.insert id with
      | error e => exact ⟨rfl, rfl, rfl, before⟩
      | ok threads' =>
        exact ⟨rfl, rfl, rfl, fun enrolled => Threads.enrolled_insert (before enrolled) inserted⟩

theorem quiet_unregister (h : Heap) (id : RecordId) : h.Quiet (h.unregister id).2 := by
  unfold unregister
  cases h.threads.record? id with
  | none => exact Quiet.refl h
  | some r =>
    simp only
    have before : h.threads.Enrolled →
        (h.threads.modify id fun r => { r with attached := false }).Enrolled :=
      fun enrolled => Threads.enrolled_modify enrolled id fun _ => rfl
    split
    · exact Quiet.refl h
    · split
      · exact ⟨rfl, rfl, rfl, before⟩
      · next removed =>
        exact ⟨rfl, rfl, rfl, fun enrolled => Threads.enrolled_remove (before enrolled) removed⟩

theorem quiet_enter (h : Heap) (c : Caller) : h.Quiet (h.enter c) :=
  ⟨rfl, rfl, rfl, fun enrolled => Threads.enrolled_modify enrolled c.record fun _ => rfl⟩

theorem quiet_unpark (h : Heap) (id : RecordId) : h.Quiet (h.unpark id).2 :=
  ⟨rfl, rfl, rfl, fun enrolled => Threads.enrolled_unpark enrolled id⟩

theorem quiet_leave (h : Heap) (id : RecordId) : h.Quiet (h.leave id).2 := by
  have before := quiet_unpark h id
  unfold leave
  cases leaving : h.unpark id with
  | mk result g =>
    rw [leaving] at before
    cases result with
    | error e => exact before
    | ok previous =>
      simp only
      split
      · exact before
      · exact before.trans
          ⟨rfl, rfl, rfl, fun enrolled => Threads.enrolled_modify enrolled id fun _ => rfl⟩

theorem quiet_poll (h : Heap) (c : Caller) : h.Quiet (h.poll c).2 := by
  unfold poll
  split
  · have noted : h.Quiet { h with safepoint := h.safepoint.recordPoll } := ⟨rfl, rfl, rfl, id⟩
    exact (noted.trans (quiet_enter _ c)).trans (quiet_leave _ c.record)
  · exact Quiet.refl h

theorem quiet_parkedBy (h : Heap) (caller : Option Caller) : h.Quiet (h.parkedBy caller) := by
  cases caller with
  | none => exact Quiet.refl h
  | some c => exact quiet_enter h c

theorem quiet_resumedBy (h : Heap) (caller : Option Caller) : h.Quiet (h.resumedBy caller) := by
  cases caller with
  | none => exact Quiet.refl h
  | some c => exact quiet_unpark h c.record

theorem quiet_foldl {β : Type} {f : Heap → β → Heap} (each : ∀ h b, Quiet h (f h b)) (bs : List β)
    (h : Heap) : h.Quiet (bs.foldl f h) := by
  induction bs generalizing h with
  | nil => exact Quiet.refl h
  | cons b bs ih => exact (each h b).trans (ih (f h b))

theorem quiet_resumeWorld (h : Heap) : h.Quiet h.resumeWorld := ⟨rfl, rfl, rfl, id⟩

end Threads

/-- Whether what other threads do during a collection is no event. -/
structure Unnoticed {α : Type} (others : Bystanders α) : Prop where
  whileStopping : ∀ h, Quiet h (others.whileStopping h)
  whileStopped : ∀ h, Quiet h (others.whileStopped h).2

theorem unnoticed_none : Unnoticed Bystanders.none := ⟨Quiet.refl, Quiet.refl⟩

def eventsOf {α : Type} : Outcome (Option (CollectionReport × α)) → List Event
  | .done (some (report, _)) => [.collected report.sweep]
  | _ => []

section Collections

variable {α : Type} {env : Embedding} {patience : Patience} {caller : Option Caller}
  {others : Bystanders α}

theorem steps_mark (trusted : env.IsSound) {result : Except Error MarkReport}
    (marking : h.mark env = (result, h')) : h.Steps [] h' := by
  have same := clearMarks_mark trusted marking
  obtain ⟨m, -, rfl⟩ := mark_cases marking
  exact .single (.mark same m.pending)

theorem steps_stopWorld {whileStopping : Heap → Heap} (unnoticed : ∀ h, Quiet h (whileStopping h))
    {stop : Stop} {s : Heap} (stopping : h.stopWorld patience whileStopping = (stop, s)) :
    h.Steps [] s := by
  have parking := unnoticed { h with safepoint := h.safepoint.request }
  unfold stopWorld at stopping
  simp only at stopping
  split at stopping
  · obtain ⟨-, rfl⟩ := Prod.mk.inj stopping
    exact .single (.achieve parking)
  · cases patience with
    | limited =>
      obtain ⟨-, rfl⟩ := Prod.mk.inj stopping
      exact .single (.abandon parking)
    | forever =>
      obtain ⟨-, rfl⟩ := Prod.mk.inj stopping
      exact .refl

theorem steps_collectParked (trusted : env.IsSound) (unnoticed : Unnoticed others)
    {result : Outcome (Option (CollectionReport × α))}
    (done : h.collectParked env patience others = (result, h')) :
    h.Steps (eventsOf result) h' := by
  unfold collectParked at done
  cases stopping : h.stopWorld patience others.whileStopping with
  | mk stop s =>
    have stopped := steps_stopWorld unnoticed.whileStopping stopping
    rw [stopping] at done
    cases stop with
    | waits =>
      obtain ⟨rfl, rfl⟩ := Prod.mk.inj done
      exact stopped
    | abandoned =>
      obtain ⟨rfl, rfl⟩ := Prod.mk.inj done
      exact stopped
    | achieved =>
      simp only at done
      cases marking : s.mark env with
      | mk marked f =>
        have marks := stopped.trans (steps_mark trusted marking)
        rw [marking] at done
        cases marked with
        | error e =>
          obtain ⟨rfl, rfl⟩ := Prod.mk.inj done
          exact marks.quiet (quiet_resumeWorld f)
        | ok mark =>
          obtain ⟨rfl, rfl⟩ := Prod.mk.inj done
          exact (marks.quiet (unnoticed.whileStopped f)).tail (.collect env.nanos)

theorem steps_collectAmong (trusted : env.IsSound) (unnoticed : Unnoticed others)
    {result : Outcome (Option (CollectionReport × α))}
    (done : h.collectAmong env caller patience others = (result, h')) :
    ∃ events, h.Steps events h' ∧ Event.blocks events = [] ∧
      ∀ answer, result = .done answer → events = eventsOf result := by
  obtain ⟨rfl, rfl⟩ | ⟨result', g, ran, rfl, same⟩ := whileParked_cases done
  · exact ⟨[], .refl, rfl, nofun⟩
  · have steps := (quiet_parkedBy h caller).steps.trans (steps_collectParked trusted unnoticed ran)
    rw [List.append_nil] at steps
    refine ⟨eventsOf result', steps.quiet (quiet_resumedBy g caller), ?_, ?_⟩
    · unfold eventsOf
      split <;> rfl
    · rintro answer rfl
      rw [same answer rfl]

theorem tells_collected {result : Outcome (Option (CollectionReport × α))} {events : List Event}
    (noBlocks : Event.blocks events = [])
    (told : ∀ answer, result = .done answer → events = eventsOf result) :
    (Answer.collected (result.map (·.map (·.1)))).Tells events := by
  cases result with
  | waits => exact ⟨noBlocks, nofun, nofun⟩
  | failed e => exact ⟨noBlocks, nofun, nofun⟩
  | done answer =>
    obtain rfl := told answer rfl
    cases answer with
    | none => exact ⟨rfl, nofun, fun _ same => Option.some.inj same⟩
    | some answer =>
      refine ⟨rfl, fun report same => ?_, fun _ same => Option.some.inj same⟩
      obtain rfl := Option.some.inj same
      exact ⟨[], rfl⟩

theorem tells_collectedLeaving {events : List Event}
    {result : Outcome (Option (CollectionReport × Except Error Unit))}
    (told : (Answer.collected (result.map (·.map (·.1)))).Tells events) :
    (Answer.collectedLeaving result).Tells events := by
  cases result with
  | waits => exact ⟨told.blocks, told.report, told.all⟩
  | failed e => exact ⟨told.blocks, told.report, told.all⟩
  | done answer => cases answer <;> exact ⟨told.blocks, told.report, told.all⟩

theorem steps_collect (trusted : env.IsSound) {result : Outcome (Option CollectionReport)}
    (done : h.collect env caller patience = (result, h')) :
    ∃ events, h.Steps events h' ∧ (Answer.collected result).Tells events := by
  obtain ⟨result', among, rfl⟩ := collect_cases done
  obtain ⟨events, steps, noBlocks, told⟩ := steps_collectAmong trusted unnoticed_none among
  exact ⟨events, steps, tells_collected noBlocks told⟩

theorem steps_maybeCollect (trusted : env.IsSound) {result : Outcome Bool}
    (done : h.maybeCollect env caller = (result, h')) :
    ∃ events, h.Steps events h' ∧ (Answer.wasDue result).Tells events := by
  obtain ⟨rfl, rfl⟩ | ⟨collected, collecting, rfl⟩ := maybeCollect_cases done
  · exact ⟨[], .refl, rfl, nofun, fun _ same => Option.some.inj same⟩
  · obtain ⟨events, steps, told⟩ := steps_collect trusted collecting
    refine ⟨events, steps, told.blocks, nofun, ?_⟩
    cases collected <;> exact nofun

end Collections

section Allocation

variable {env : Embedding} {caller : Option Caller} {size : Nat} {kind : BlockKind}

theorem steps_allocateNow {host : Host} (aligned : host.IsAligned) {result : Except Error Block}
    (asked : h.allocateNow host size kind = (result, h')) :
    ∃ events, h.Steps events h' ∧
      Event.blocks events = (Answer.block (.ofExcept result)).block?.toList := by
  unfold allocateNow at asked
  cases asking : h.arena.allocate host size kind with
  | mk answer a =>
    rw [asking] at asked
    cases answer with
    | error e =>
      obtain ⟨rfl, rfl⟩ := Prod.mk.inj asked
      exact ⟨[], .single (.refuse aligned asking), rfl⟩
    | ok b =>
      obtain ⟨rfl, rfl⟩ := Prod.mk.inj asked
      exact ⟨[.allocated b], .single (.allocate aligned asking), rfl⟩

theorem steps_allocate (trusted : env.IsSound) {result : Outcome Block}
    (done : h.allocate env caller size kind = (result, h')) :
    ∃ events, h.Steps events h' ∧ (Answer.block result).Tells events := by
  have told : ∀ {events}, Event.blocks events = (Answer.block result).block?.toList →
      (Answer.block result).Tells events := fun blocks => ⟨blocks, nofun, nofun⟩
  have nobody : (∀ b, result ≠ .done b) → (Answer.block result).block? = none := by
    intro nothing
    cases result with
    | done b => exact absurd rfl (nothing b)
    | failed e => rfl
    | waits => rfl
  have due : ∀ {result : Outcome Bool} {g : Heap}, h.maybeCollect env caller = (result, g) →
      ∃ events, h.Steps events g ∧ Event.blocks events = [] := fun checked => by
    obtain ⟨events, steps, told⟩ := steps_maybeCollect trusted checked
    exact ⟨events, steps, told.blocks⟩
  cases allocates_of_allocate done with
  | stuck checked nothing =>
    obtain ⟨events, steps, noBlocks⟩ := due checked
    exact ⟨events, steps, told (by rw [noBlocks, nobody nothing]; rfl)⟩
  | answered checked asked =>
    obtain ⟨events, steps, noBlocks⟩ := due checked
    obtain ⟨later, steps', blocks⟩ := steps_allocateNow trusted.1.1 asked
    refine ⟨later ++ events, steps.trans steps', told ?_⟩
    rw [Event.blocks_append, noBlocks, List.append_nil, blocks]
  | stuckAgain checked asked collecting nothing =>
    obtain ⟨events, steps, noBlocks⟩ := due checked
    obtain ⟨refused, steps', noBlocks'⟩ := steps_allocateNow trusted.1.1 asked
    obtain ⟨events', steps'', told'⟩ := steps_collect trusted collecting
    refine ⟨_, (steps.trans steps').trans steps'', told ?_⟩
    rw [Event.blocks_append, Event.blocks_append, noBlocks, noBlocks', told'.blocks,
      nobody nothing]
    rfl
  | answeredAgain checked asked collecting askedAgain =>
    obtain ⟨events, steps, noBlocks⟩ := due checked
    obtain ⟨refused, steps', noBlocks'⟩ := steps_allocateNow trusted.1.1 asked
    obtain ⟨events', steps'', told'⟩ := steps_collect trusted collecting
    obtain ⟨later, steps₃, blocks⟩ := steps_allocateNow trusted.2.1.1 askedAgain
    refine ⟨_, ((steps.trans steps').trans steps'').trans steps₃, told ?_⟩
    rw [Event.blocks_append, Event.blocks_append, Event.blocks_append, noBlocks, noBlocks',
      told'.blocks, blocks]
    exact List.append_nil _

end Allocation

section Operations

variable {env : Embedding} {caller visitor : Option Caller} {size : Nat} {kind : BlockKind}

theorem steps_dump (h : Heap) (env : Embedding) (caller : Option Caller) (limit : Option Nat) :
    h.Steps [] (h.dump env caller limit).2 := by
  cases dumping : h.dump env caller limit with
  | mk result h' =>
    obtain ⟨-, rfl⟩ | ⟨result', g, ran, rfl, -⟩ := whileParked_cases dumping
    · exact .refl
    · cases stopping : (h.parkedBy caller).stopWorld .forever fun h => h with
      | mk stop s =>
        have stopped := (quiet_parkedBy h caller).steps.trans (steps_stopWorld Quiet.refl stopping)
        rw [stopping] at ran
        cases stop <;>
        · obtain ⟨-, rfl⟩ := Prod.mk.inj ran
          first
          | exact stopped.quiet ((quiet_resumeWorld s).trans (quiet_resumedBy _ caller))
          | exact stopped.quiet (quiet_resumedBy _ caller)

theorem steps_collectPolled (trusted : env.IsSound) (pollers : List Caller)
    {result : Outcome (Option CollectionReport)}
    (done : h.collectPolled env caller pollers = (result, h')) :
    ∃ events, h.Steps events h' ∧ (Answer.collected result).Tells events := by
  have unnoticed : Unnoticed ({ whileStopping := fun h => pollers.foldl (fun h c => (h.poll c).2) h
                                whileStopped := fun h => ((), h) } : Bystanders Unit) :=
    ⟨quiet_foldl quiet_poll pollers, Quiet.refl⟩
  unfold collectPolled at done
  simp only at done
  split at done
  · next among =>
    obtain ⟨rfl, rfl⟩ := Prod.mk.inj done
    obtain ⟨events, steps, noBlocks, told⟩ := steps_collectAmong trusted unnoticed among
    exact ⟨events, steps, tells_collected noBlocks told⟩
  · next result' g ended among =>
    obtain ⟨rfl, rfl⟩ := Prod.mk.inj done
    obtain ⟨events, steps, noBlocks, told⟩ := steps_collectAmong trusted unnoticed among
    have left := quiet_foldl (fun h c => quiet_leave h (Caller.record c)) pollers g
    exact ⟨events, steps.quiet left, tells_collected noBlocks told⟩

theorem steps_collectLeft (trusted : env.IsSound) (visitor : RecordId)
    {result : Outcome (Option (CollectionReport × Except Error Unit))}
    (done : h.collectLeft env caller visitor = (result, h')) :
    ∃ events, h.Steps events h' ∧ (Answer.collectedLeaving result).Tells events := by
  have unnoticed : Unnoticed ({ whileStopping := fun h => h
                                whileStopped := fun h => h.leave visitor } :
                                Bystanders (Except Error Leaving)) :=
    ⟨Quiet.refl, fun h => quiet_leave h visitor⟩
  unfold collectLeft at done
  simp only at done
  split at done
  · next report g among =>
    obtain ⟨rfl, rfl⟩ := Prod.mk.inj done
    obtain ⟨events, steps, noBlocks, told⟩ := steps_collectAmong trusted unnoticed among
    have truth := tells_collected noBlocks told
    exact ⟨events, steps.quiet (quiet_leave g visitor), tells_collectedLeaving truth⟩
  · next result' g other among =>
    obtain ⟨rfl, rfl⟩ := Prod.mk.inj done
    obtain ⟨events, steps, noBlocks, told⟩ := steps_collectAmong trusted unnoticed among
    have truth := tells_collected noBlocks told
    refine ⟨events, steps, tells_collectedLeaving ?_⟩
    cases result' with
    | waits => exact truth
    | failed e => exact truth
    | done answer => cases answer <;> exact truth

theorem steps_collectAllocating (trusted : env.IsSound)
    {result : Outcome (Option (CollectionReport × Outcome Block))}
    (done : h.collectAllocating env caller visitor size kind = (result, h')) :
    ∃ events, h.Steps events h' ∧ (Answer.collectedAllocating result).Tells events := by
  have unnoticed : Unnoticed ({ whileStopping := fun h => h
                                whileStopped := fun h => ((), visitor.elim h h.enter) } :
                                Bystanders Unit) :=
    ⟨Quiet.refl, fun h => quiet_parkedBy h visitor⟩
  unfold collectAllocating at done
  simp only at done
  split at done
  · next report g among =>
    obtain ⟨events, steps, noBlocks, told⟩ := steps_collectAmong trusted unnoticed among
    obtain rfl := told _ rfl
    cases asking : (g.resumedBy visitor).allocate env visitor size kind with
    | mk answer k =>
      unfold resumedBy at asking
      rw [asking] at done
      obtain ⟨rfl, rfl⟩ := Prod.mk.inj done
      obtain ⟨later, steps', told'⟩ := steps_allocate trusted asking
      refine ⟨_, (steps.quiet (quiet_resumedBy g visitor)).trans steps', ?_, ?_, nofun⟩
      · rw [Event.blocks_append, told'.blocks, noBlocks, List.append_nil]
        cases answer <;> rfl
      · intro report' same
        obtain rfl : report.sweep = report' := by cases answer <;> exact Option.some.inj same
        exact ⟨later, rfl⟩
  all_goals
    next among =>
      obtain ⟨rfl, rfl⟩ := Prod.mk.inj done
      obtain ⟨events, steps, noBlocks, told⟩ := steps_collectAmong trusted unnoticed among
      refine ⟨events, steps, noBlocks, nofun, ?_⟩
      first
      | exact fun _ same => (told _ rfl).trans (Option.some.inj same)
      | exact nofun

theorem Steps.unheard {answer : Answer} {g : Heap} (steps : h.Steps [] g)
    (noBlock : answer.block? = none) (noReport : answer.report? = none)
    (silent : answer.events? = none) : ∃ events, h.Steps events g ∧ answer.Tells events :=
  ⟨[], steps, by rw [noBlock]; rfl, by simp [noReport], by simp [silent]⟩

/-- An operation that keeps to the rules is a row of steps, and its answer tells the truth about
them. -/
theorem steps_perform (operation : Operation) (admitted : h.Admits operation) :
    ∃ events, h.Steps events (h.perform operation).2 ∧ (h.perform operation).1.Tells events := by
  cases operation with
  | setFlags flags => exact (quiet_setFlags h flags).steps.unheard rfl rfl rfl
  | addRoot addr => exact (quiet_addRoot h addr).steps.unheard rfl rfl rfl
  | removeRoot addr => exact (quiet_removeRoot h addr).steps.unheard rfl rfl rfl
  | root value => exact (quiet_root h value).steps.unheard rfl rfl rfl
  | setHandle id value => exact (quiet_setHandle h id value).steps.unheard rfl rfl rfl
  | dropHandle id => exact (quiet_dropHandle h id).steps.unheard rfl rfl rfl
  | register thread name stackTop =>
    exact (quiet_register h thread name stackTop).steps.unheard rfl rfl rfl
  | unregister id => exact (quiet_unregister h id).steps.unheard rfl rfl rfl
  | setException id value => exact (quiet_setException h id value).steps.unheard rfl rfl rfl
  | setHandler id value => exact (quiet_setHandler h id value).steps.unheard rfl rfl rfl
  | enter c => exact (quiet_enter h c).steps.unheard rfl rfl rfl
  | leave id => exact (quiet_leave h id).steps.unheard rfl rfl rfl
  | poll c => exact (quiet_poll h c).steps.unheard rfl rfl rfl
  | write addr w =>
    obtain ⟨-, b, held, low, high⟩ := admitted
    have inside : b.Contains addr := ⟨low, by unfold wordBytes at high; lia⟩
    exact (Steps.single (.write w held inside)).unheard rfl rfl rfl
  | allocate env caller size kind => exact steps_allocate admitted.1 rfl
  | collect env caller patience => exact steps_collect admitted.1 rfl
  | maybeCollect env caller => exact steps_maybeCollect admitted.1 rfl
  | collectPolled env caller pollers => exact steps_collectPolled admitted.1 pollers rfl
  | collectLeft env caller visitor => exact steps_collectLeft admitted.1 visitor rfl
  | collectAllocating env caller visitor size kind => exact steps_collectAllocating admitted.1 rfl
  | dump env caller limit => exact (steps_dump h env caller limit).unheard rfl rfl rfl
  | query addr => exact Steps.refl.unheard rfl rfl rfl
  | stats => exact Steps.refl.unheard rfl rfl rfl

end Operations

section Logs

variable {config : Config} {log : List Event}

theorem Reachable.exists_logged (run : Reachable config h) : ∃ log, Logged config h log := by
  induction run with
  | new made => exact ⟨[], .new made⟩
  | perform operation before admitted ih =>
    obtain ⟨log, logged⟩ := ih
    obtain ⟨events, steps, told⟩ := steps_perform operation admitted
    exact ⟨events ++ log, logged.perform operation admitted steps told⟩

theorem Logged.reachable (logged : Logged config h log) : Reachable config h := by
  induction logged with
  | new made => exact .new made
  | perform operation before admitted steps told ih => exact .perform operation ih admitted

end Logs

end Heap

end MarkSweep
