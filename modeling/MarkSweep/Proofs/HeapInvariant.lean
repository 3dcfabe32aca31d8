import MarkSweep.Heap.History
import MarkSweep.Proofs.ArenaAllocation
import MarkSweep.Proofs.ArenaSweep
import MarkSweep.Proofs.MarkPhases

set_option autoImplicit false

namespace MarkSweep

theorem Arena.exists_write_eq {a : Arena} (sound : a.Sound) {b : Block} (held : a.Holds b) {x : Addr}
    (inside : b.Contains x) (w : UInt64) :
    ∃ (i : Nat) (s : Slab) (k : Nat), a.slabs[i]? = some s ∧ s.isAllocated k = true ∧
      b = s.block k ∧ a.write x w = { a with slabs := a.slabs.setIfInBounds i (s.write x w) } := by
  obtain ⟨i, s, k, found, allocated, rfl⟩ := holds_iff.1 held
  have there := contains_of_block sound found allocated inside
  have slabs : a.slabs.modify i (·.write x w) = a.slabs.setIfInBounds i (s.write x w) := by
    refine Array.ext_getElem? fun j => ?_
    rw [Array.getElem?_modify, Array.getElem?_setIfInBounds]
    by_cases same : i = j
    · subst same
      rw [if_pos rfl, if_pos rfl, if_pos (Array.getElem?_eq_some_iff.1 found).1, found]
      rfl
    · rw [if_neg same, if_neg same]
  refine ⟨i, s, k, found, allocated, rfl, ?_⟩
  rw [write, position?_eq_some sound found there, ← slabs]

theorem Arena.sound_write {a : Arena} (sound : a.Sound) {b : Block} (held : a.Holds b) {x : Addr}
    (inside : b.Contains x) (w : UInt64) : (a.write x w).Sound := by
  obtain ⟨i, s, k, found, allocated, rfl, same⟩ := exists_write_eq sound held inside w
  have written := Slab.sound_write (slab_sound sound found) allocated inside.1 inside.2 w
  rw [same]
  exact sound_of_same_pages sound (slab_sound_of_setIfInBounds sound rfl written)
    (page?_setIfInBounds found rfl rfl) rfl rfl rfl fun _ _ h => h

namespace Heap

section Threads

variable {α : Type} (h : Heap)

theorem arena_register (thread : ThreadId) (name : String) (stackTop : Addr) :
    (h.register thread name stackTop).2.arena = h.arena := by
  unfold register
  cases h.threads.current? thread with
  | some id => rfl
  | none =>
    cases h.threads.create { thread, name, stackTop } with
    | mk id threads =>
      simp only
      cases threads.insert id <;> rfl

theorem arena_unregister (id : RecordId) : (h.unregister id).2.arena = h.arena := by
  unfold unregister
  cases h.threads.record? id with
  | none => rfl
  | some r =>
    simp only
    split
    · rfl
    · split <;> rfl

theorem arena_unpark (id : RecordId) : (h.unpark id).2.arena = h.arena := rfl

theorem arena_leave (id : RecordId) : (h.leave id).2.arena = h.arena := by
  unfold leave
  have before := arena_unpark h id
  cases leaving : h.unpark id with
  | mk result h' =>
    rw [leaving] at before
    cases result with
    | error e => exact before
    | ok previous =>
      simp only
      split <;> exact before

theorem arena_poll (c : Caller) : (h.poll c).2.arena = h.arena := by
  unfold poll
  split
  · exact arena_leave _ c.record
  · rfl

def parkedBy (caller : Option Caller) : Heap := caller.elim h h.enter

def resumedBy (caller : Option Caller) : Heap := caller.elim h fun c => (h.unpark c.record).2

theorem arena_parkedBy (caller : Option Caller) : (h.parkedBy caller).arena = h.arena := by
  cases caller <;> rfl

theorem arena_resumedBy (caller : Option Caller) : (h.resumedBy caller).arena = h.arena := by
  cases caller <;> rfl

end Threads

/-- An operation with the calling thread parked waits, and then nothing has changed, or it has run
between the thread's parking and its return. -/
theorem whileParked_cases {α : Type} {caller : Option Caller}
    {operation : Heap → Outcome α × Heap} {h h' : Heap} {result : Outcome α}
    (done : h.whileParked caller operation = (result, h')) :
    result = .waits ∧ h' = h ∨
      ∃ result' g, operation (h.parkedBy caller) = (result', g) ∧ h' = g.resumedBy caller ∧
        ∀ a, result = .done a → result' = .done a := by
  cases caller with
  | none => exact .inr ⟨result, h', done, rfl, fun _ same => same⟩
  | some c =>
    unfold whileParked at done
    simp only at done
    split at done
    · exact .inl ((Prod.mk.inj done).imp Eq.symm Eq.symm)
    · next result' g ended running =>
      refine .inr ⟨result', g, running, ?_⟩
      cases unparking : g.unpark c.record with
      | mk popped g' =>
        have parked : g.resumedBy (some c) = g' := congrArg Prod.snd unparking
        rw [unparking] at done
        cases popped with
        | error e =>
          obtain ⟨rfl, rfl⟩ := Prod.mk.inj done
          exact ⟨parked.symm, nofun⟩
        | ok previous =>
          obtain ⟨rfl, rfl⟩ := Prod.mk.inj done
          exact ⟨parked.symm, fun _ same => same⟩

/-- Whether other threads leave the blocks alone during a collection. -/
structure Calm {α : Type} (others : Bystanders α) : Prop where
  whileStopping : ∀ h, (others.whileStopping h).arena = h.arena
  whileStopped : ∀ h, (others.whileStopped h).2.arena = h.arena

def stoppedAt (whileStopping : Heap → Heap) (p : Safepoint) (h : Heap) : Heap :=
  { whileStopping { h with safepoint := h.safepoint.request } with safepoint := p }

theorem stopWorld_cases {patience : Patience} {whileStopping : Heap → Heap} {h s : Heap}
    {stop : Stop} (stopping : h.stopWorld patience whileStopping = (stop, s)) :
    stop = .waits ∧ s = h ∨ stop ≠ .waits ∧ ∃ p, s = h.stoppedAt whileStopping p := by
  unfold stopWorld at stopping
  simp only at stopping
  split at stopping
  · obtain ⟨rfl, rfl⟩ := Prod.mk.inj stopping
    exact .inr ⟨nofun, _, rfl⟩
  · cases patience with
    | limited =>
      obtain ⟨rfl, rfl⟩ := Prod.mk.inj stopping
      exact .inr ⟨nofun, _, rfl⟩
    | forever =>
      obtain ⟨rfl, rfl⟩ := Prod.mk.inj stopping
      exact .inl ⟨rfl, rfl⟩

/-- How a collection by a parked thread ends. -/
inductive Collects {α : Type} (env : Embedding) (others : Bystanders α) (h : Heap) :
    Outcome (Option (CollectionReport × α)) → Heap → Prop
  | waits : Collects env others h .waits h
  | abandoned (p : Safepoint) :
      Collects env others h (.done none) (h.stoppedAt others.whileStopping p)
  | failed (p : Safepoint) {e : Error} {g : Heap}
      (marking : (h.stoppedAt others.whileStopping p).mark env = (.error e, g)) :
      Collects env others h (.failed e) g.resumeWorld
  | finished (p : Safepoint) {mark : MarkReport} {a : α} {f g : Heap}
      (marking : (h.stoppedAt others.whileStopping p).mark env = (.ok mark, f))
      (meeting : others.whileStopped f = (a, g)) :
      Collects env others h (.done (some ({ mark, sweep := g.sweep.1 }, a)))
        { g.sweep.2.resumeWorld with
          stats := g.sweep.2.resumeWorld.stats.recordCollection env.nanos g.sweep.1 }

theorem collects_of_collectParked {α : Type} {env : Embedding} {patience : Patience}
    {others : Bystanders α} {h h' : Heap} {result : Outcome (Option (CollectionReport × α))}
    (done : h.collectParked env patience others = (result, h')) :
    h.Collects env others result h' := by
  unfold collectParked at done
  cases stopping : h.stopWorld patience others.whileStopping with
  | mk stop s =>
    rw [stopping] at done
    obtain ⟨rfl, rfl⟩ | ⟨answered, p, rfl⟩ := stopWorld_cases stopping
    · obtain ⟨rfl, rfl⟩ := Prod.mk.inj done
      exact .waits
    · cases stop with
      | waits => exact absurd rfl answered
      | abandoned =>
        obtain ⟨rfl, rfl⟩ := Prod.mk.inj done
        exact .abandoned p
      | achieved =>
        simp only at done
        cases marking : (h.stoppedAt others.whileStopping p).mark env with
        | mk marked f =>
          rw [marking] at done
          cases marked with
          | error e =>
            obtain ⟨rfl, rfl⟩ := Prod.mk.inj done
            exact .failed p marking
          | ok mark =>
            obtain ⟨rfl, rfl⟩ := Prod.mk.inj done
            exact .finished p marking rfl

theorem mark_cases {env : Embedding} {h f : Heap} {result : Except Error MarkReport}
    (marking : h.mark env = (result, f)) :
    ∃ m, ({ arena := h.arena.clearMarks, pending := h.pending } : Marker).markPhaseBy env.drain
        env.toMarkContext (h.rootValues env.toSurroundings) h.threads.active = (result, m) ∧
      f = { h with arena := m.arena, pending := m.pending } := by
  unfold mark at marking
  obtain ⟨rfl, rfl⟩ := Prod.mk.inj marking
  exact ⟨_, rfl, rfl⟩

theorem clearMarks_mark {env : Embedding} (trusted : env.IsSound) {h f : Heap}
    {result : Except Error MarkReport} (marking : h.mark env = (result, f)) :
    f.arena.clearMarks = h.arena.clearMarks := by
  obtain ⟨m, phase, rfl⟩ := mark_cases marking
  have same := Marker.clearMarks_markPhaseBy trusted.2.2.2 (h.rootValues env.toSurroundings)
    h.threads.active { arena := h.arena.clearMarks, pending := h.pending }
  rw [phase] at same
  exact same.trans (Arena.clearMarks_clearMarks _)

section Soundness

variable {α : Type} {env : Embedding} {h h' : Heap}

theorem Collects.sound {others : Bystanders α}
    {result : Outcome (Option (CollectionReport × α))} (ended : h.Collects env others result h')
    (trusted : env.IsSound) (calm : Calm others) (sound : h.arena.Sound) : h'.arena.Sound := by
  have stopped : ∀ p, (h.stoppedAt others.whileStopping p).arena = h.arena :=
    fun p => calm.whileStopping _
  cases ended with
  | waits => exact sound
  | abandoned p => exact stopped p ▸ sound
  | failed p marking =>
    have same := clearMarks_mark trusted marking
    rw [stopped] at same
    exact Arena.sound_congr same sound
  | finished p marking meeting =>
    have same := clearMarks_mark trusted marking
    have met := congrArg (fun r => r.2.arena) meeting
    rw [calm.whileStopped] at met
    rw [stopped] at same
    exact Arena.sound_sweep (met ▸ Arena.sound_congr same sound)

theorem sound_collectAmong {others : Bystanders α} {caller : Option Caller} {patience : Patience}
    {result : Outcome (Option (CollectionReport × α))}
    (collecting : h.collectAmong env caller patience others = (result, h'))
    (trusted : env.IsSound) (calm : Calm others) (sound : h.arena.Sound) : h'.arena.Sound := by
  obtain ⟨-, rfl⟩ | ⟨result', g, ran, rfl, -⟩ := whileParked_cases collecting
  · exact sound
  · rw [arena_resumedBy]
    refine (collects_of_collectParked ran).sound trusted calm ?_
    rw [arena_parkedBy]
    exact sound

theorem calm_none : Calm Bystanders.none := ⟨fun _ => rfl, fun _ => rfl⟩

theorem collect_cases {caller : Option Caller} {patience : Patience}
    {result : Outcome (Option CollectionReport)}
    (collecting : h.collect env caller patience = (result, h')) :
    ∃ result', h.collectAmong env caller patience Bystanders.none = (result', h') ∧
      result = result'.map (·.map (·.1)) := by
  unfold collect at collecting
  cases among : h.collectAmong env caller patience Bystanders.none with
  | mk result' g =>
    rw [among] at collecting
    obtain ⟨rfl, rfl⟩ := Prod.mk.inj collecting
    exact ⟨result', rfl, rfl⟩

theorem sound_collect {caller : Option Caller} {patience : Patience}
    {result : Outcome (Option CollectionReport)}
    (collecting : h.collect env caller patience = (result, h')) (trusted : env.IsSound)
    (sound : h.arena.Sound) : h'.arena.Sound := by
  obtain ⟨result', among, -⟩ := collect_cases collecting
  exact sound_collectAmong among trusted calm_none sound

theorem maybeCollect_cases {caller : Option Caller} {result : Outcome Bool}
    (checked : h.maybeCollect env caller = (result, h')) :
    result = .done false ∧ h' = h ∨ ∃ collected,
      h.collect env caller .forever = (collected, h') ∧ result = collected.map fun _ => true := by
  unfold maybeCollect at checked
  split at checked
  · exact .inl ((Prod.mk.inj checked).imp Eq.symm Eq.symm)
  · split at checked
    · cases collecting : h.collect env caller .forever with
      | mk collected g =>
        rw [collecting] at checked
        obtain ⟨rfl, rfl⟩ := Prod.mk.inj checked
        exact .inr ⟨collected, rfl, rfl⟩
    · exact .inl ((Prod.mk.inj checked).imp Eq.symm Eq.symm)

theorem sound_maybeCollect {caller : Option Caller} {result : Outcome Bool}
    (checked : h.maybeCollect env caller = (result, h')) (trusted : env.IsSound)
    (sound : h.arena.Sound) : h'.arena.Sound := by
  obtain ⟨-, rfl⟩ | ⟨collected, collecting, -⟩ := maybeCollect_cases checked
  · exact sound
  · exact sound_collect collecting trusted sound

end Soundness

inductive Allocates (env : Embedding) (caller : Option Caller) (size : Nat) (kind : BlockKind)
    (h : Heap) : Outcome Block → Heap → Prop
  | stuck {due : Outcome Bool} {h₁ : Heap} {result : Outcome Block}
      (checked : h.maybeCollect env caller = (due, h₁)) (nothing : ∀ b, result ≠ .done b) :
      Allocates env caller size kind h result h₁
  | answered {due : Bool} {h₁ h₂ : Heap} {result : Except Error Block}
      (checked : h.maybeCollect env caller = (.done due, h₁))
      (asked : h₁.allocateNow env.host size kind = (result, h₂)) :
      Allocates env caller size kind h (.ofExcept result) h₂
  | stuckAgain {due : Bool} {h₁ h₂ h₃ : Heap} {e : Error}
      {collected : Outcome (Option CollectionReport)} {result : Outcome Block}
      (checked : h.maybeCollect env caller = (.done due, h₁))
      (asked : h₁.allocateNow env.host size kind = (.error e, h₂))
      (collecting : h₂.collect env caller .forever = (collected, h₃))
      (nothing : ∀ b, result ≠ .done b) : Allocates env caller size kind h result h₃
  | answeredAgain {due : Bool} {h₁ h₂ h₃ h₄ : Heap} {e : Error}
      {report : Option CollectionReport} {result : Except Error Block}
      (checked : h.maybeCollect env caller = (.done due, h₁))
      (asked : h₁.allocateNow env.host size kind = (.error e, h₂))
      (collecting : h₂.collect env caller .forever = (.done report, h₃))
      (askedAgain : h₃.allocateNow env.hostAgain size kind = (result, h₄)) :
      Allocates env caller size kind h (.ofExcept result) h₄

theorem allocates_of_allocate {env : Embedding} {caller : Option Caller} {size : Nat}
    {kind : BlockKind} {h h' : Heap} {result : Outcome Block}
    (done : h.allocate env caller size kind = (result, h')) :
    h.Allocates env caller size kind result h' := by
  unfold allocate at done
  cases checked : h.maybeCollect env caller with
  | mk due h₁ =>
    rw [checked] at done
    cases due with
    | waits =>
      obtain ⟨rfl, rfl⟩ := Prod.mk.inj done
      exact .stuck checked nofun
    | failed e =>
      obtain ⟨rfl, rfl⟩ := Prod.mk.inj done
      exact .stuck checked nofun
    | done due =>
      simp only at done
      cases asked : h₁.allocateNow env.host size kind with
      | mk answer h₂ =>
        rw [asked] at done
        cases answer with
        | ok b =>
          obtain ⟨rfl, rfl⟩ := Prod.mk.inj done
          exact .answered checked asked
        | error e =>
          simp only at done
          split at done
          · cases collecting : h₂.collect env caller .forever with
            | mk collected h₃ =>
              rw [collecting] at done
              cases collected with
              | waits =>
                obtain ⟨rfl, rfl⟩ := Prod.mk.inj done
                exact .stuckAgain checked asked collecting nofun
              | failed e =>
                obtain ⟨rfl, rfl⟩ := Prod.mk.inj done
                exact .stuckAgain checked asked collecting nofun
              | done report =>
                obtain ⟨rfl, rfl⟩ := Prod.mk.inj done
                exact .answeredAgain checked asked collecting rfl
          · obtain ⟨rfl, rfl⟩ := Prod.mk.inj done
            exact .answered checked asked

theorem allocateNow_cases {host : Host} {size : Nat} {kind : BlockKind} {h h' : Heap}
    {result : Except Error Block} (asked : h.allocateNow host size kind = (result, h')) :
    ∃ b stats, h.arena.allocate host size kind = (result, b) ∧
      h' = { h with arena := b, stats } := by
  unfold allocateNow at asked
  cases asking : h.arena.allocate host size kind with
  | mk answer b =>
    rw [asking] at asked
    cases answer with
    | error e =>
      obtain ⟨rfl, rfl⟩ := Prod.mk.inj asked
      exact ⟨b, h.stats, rfl, rfl⟩
    | ok block =>
      obtain ⟨rfl, rfl⟩ := Prod.mk.inj asked
      exact ⟨b, _, rfl, rfl⟩

section Soundness

variable {env : Embedding} {h h' : Heap} {size : Nat} {kind : BlockKind}

theorem sound_allocateNow {host : Host} {result : Except Error Block}
    (asked : h.allocateNow host size kind = (result, h')) (aligned : host.IsAligned)
    (sound : h.arena.Sound) : h'.arena.Sound := by
  obtain ⟨b, stats, asking, rfl⟩ := allocateNow_cases asked
  exact (Arena.allocate_spec sound aligned asking).1

theorem sound_allocate {caller : Option Caller} {result : Outcome Block}
    (done : h.allocate env caller size kind = (result, h')) (trusted : env.IsSound)
    (sound : h.arena.Sound) : h'.arena.Sound := by
  cases allocates_of_allocate done with
  | stuck checked nothing => exact sound_maybeCollect checked trusted sound
  | answered checked asked =>
    exact sound_allocateNow asked trusted.1.1 (sound_maybeCollect checked trusted sound)
  | stuckAgain checked asked collecting nothing =>
    have first := sound_allocateNow asked trusted.1.1 (sound_maybeCollect checked trusted sound)
    exact sound_collect collecting trusted first
  | answeredAgain checked asked collecting askedAgain =>
    have first := sound_allocateNow asked trusted.1.1 (sound_maybeCollect checked trusted sound)
    exact sound_allocateNow askedAgain trusted.2.1.1 (sound_collect collecting trusted first)

theorem arena_foldl_poll (pollers : List Caller) (h : Heap) :
    (pollers.foldl (fun h c => (h.poll c).2) h).arena = h.arena := by
  induction pollers generalizing h with
  | nil => rfl
  | cons c pollers ih => exact (ih _).trans (arena_poll h c)

theorem arena_foldl_leave (callers : List Caller) (h : Heap) :
    (callers.foldl (fun h c => (h.leave c.record).2) h).arena = h.arena := by
  induction callers generalizing h with
  | nil => rfl
  | cons c callers ih => exact (ih _).trans (arena_leave h c.record)

theorem sound_collectPolled (trusted : env.IsSound) (sound : h.arena.Sound)
    (caller : Option Caller) (pollers : List Caller) :
    (h.collectPolled env caller pollers).2.arena.Sound := by
  have calm : Calm ({ whileStopping := fun h => pollers.foldl (fun h c => (h.poll c).2) h
                      whileStopped := fun h => ((), h) } : Bystanders Unit) :=
    ⟨arena_foldl_poll pollers, fun _ => rfl⟩
  unfold collectPolled
  simp only
  split
  · next collecting => exact sound_collectAmong collecting trusted calm sound
  · next collecting =>
    rw [arena_foldl_leave]
    exact sound_collectAmong collecting trusted calm sound

theorem sound_collectLeft (trusted : env.IsSound) (sound : h.arena.Sound)
    (caller : Option Caller) (visitor : RecordId) :
    (h.collectLeft env caller visitor).2.arena.Sound := by
  have calm : Calm ({ whileStopping := fun h => h
                      whileStopped := fun h => h.leave visitor } :
                      Bystanders (Except Error Leaving)) :=
    ⟨fun _ => rfl, fun h => arena_leave h visitor⟩
  unfold collectLeft
  simp only
  split
  · next collecting =>
    rw [arena_leave]
    exact sound_collectAmong collecting trusted calm sound
  · next collecting => exact sound_collectAmong collecting trusted calm sound

theorem sound_collectAllocating (trusted : env.IsSound) (sound : h.arena.Sound)
    (caller visitor : Option Caller) (size : Nat) (kind : BlockKind) :
    (h.collectAllocating env caller visitor size kind).2.arena.Sound := by
  have calm : Calm ({ whileStopping := fun h => h
                      whileStopped := fun h => ((), visitor.elim h h.enter) } : Bystanders Unit) :=
    ⟨fun _ => rfl, fun h => arena_parkedBy h visitor⟩
  unfold collectAllocating
  simp only
  split
  · next report g collecting =>
    have collected := sound_collectAmong collecting trusted calm sound
    rw [← arena_resumedBy g visitor] at collected
    cases asking : (g.resumedBy visitor).allocate env visitor size kind with
    | mk result k =>
      have sorted := sound_allocate asking trusted collected
      unfold resumedBy at asking
      simp only [asking]
      exact sorted
  all_goals
    next collecting => exact sound_collectAmong collecting trusted calm sound

theorem sound_dump (sound : h.arena.Sound) (caller : Option Caller) (limit : Option Nat) :
    (h.dump env caller limit).2.arena.Sound := by
  cases dumping : h.dump env caller limit with
  | mk result h' =>
    obtain ⟨-, rfl⟩ | ⟨result', g, ran, rfl, -⟩ := whileParked_cases dumping
    · exact sound
    · rw [arena_resumedBy]
      cases stopping : (h.parkedBy caller).stopWorld .forever fun h => h with
      | mk stop s =>
        have same : s.arena = h.arena := by
          obtain ⟨-, rfl⟩ | ⟨-, p, rfl⟩ := stopWorld_cases stopping <;>
          exact arena_parkedBy h caller
        rw [stopping] at ran
        cases stop <;>
        · obtain ⟨-, rfl⟩ := Prod.mk.inj ran
          exact same ▸ sound

theorem sound_perform (operation : Operation) (sound : h.arena.Sound)
    (admitted : h.Admits operation) : (h.perform operation).2.arena.Sound := by
  cases operation with
  | setFlags flags => exact sound
  | addRoot addr =>
    change (h.addRoot addr).arena.Sound
    unfold addRoot
    split <;> exact sound
  | removeRoot addr =>
    change (h.removeRoot addr).arena.Sound
    unfold removeRoot
    split <;> exact sound
  | root value => exact sound
  | setHandle id value =>
    change (h.setHandle id value).arena.Sound
    unfold setHandle
    split <;> exact sound
  | dropHandle id =>
    change (h.dropHandle id).2.arena.Sound
    unfold dropHandle
    split <;> exact sound
  | register thread name stackTop => exact (arena_register h thread name stackTop) ▸ sound
  | unregister id => exact (arena_unregister h id) ▸ sound
  | setException id value => exact sound
  | setHandler id value => exact sound
  | enter c => exact sound
  | leave id => exact (arena_leave h id) ▸ sound
  | poll c => exact (arena_poll h c) ▸ sound
  | write addr w =>
    obtain ⟨-, b, held, low, high⟩ := admitted
    refine Arena.sound_write sound held ⟨low, ?_⟩ w
    unfold wordBytes at high
    lia
  | allocate env caller size kind => exact sound_allocate rfl admitted.1 sound
  | collect env caller patience => exact sound_collect rfl admitted.1 sound
  | maybeCollect env caller => exact sound_maybeCollect rfl admitted.1 sound
  | collectPolled env caller pollers => exact sound_collectPolled admitted.1 sound caller pollers
  | collectLeft env caller visitor => exact sound_collectLeft admitted.1 sound caller visitor
  | collectAllocating env caller visitor size kind =>
    exact sound_collectAllocating admitted.1 sound caller visitor size kind
  | dump env caller limit => exact sound_dump sound caller limit
  | query addr => exact sound
  | stats => exact sound

theorem validHugeThreshold_of_check {config : Config} (checked : config.check = .ok ()) :
    Config.validHugeThreshold config.hugeThreshold = true := by
  unfold Config.check at checked
  split at checked
  · simp at checked
  · split at checked
    · simp at checked
    · split at checked
      · simp at checked
      · next valid => simpa using valid

theorem Reachable.sound {config : Config} (run : Reachable config h) : h.arena.Sound := by
  induction run with
  | new made =>
    unfold Heap.new at made
    cases checked : config.check with
    | error e => simp [checked, bind, Except.bind] at made
    | ok u =>
      rw [checked] at made
      obtain rfl := Except.ok.inj made
      exact Arena.sound_new _ _
  | perform operation before admitted ih => exact sound_perform operation ih admitted

end Soundness

def performAll : List Operation → Heap → Heap
  | [], h => h
  | operation :: rest, h => performAll rest (h.perform operation).2

def AdmitsAll : List Operation → Heap → Prop
  | [], _ => True
  | operation :: rest, h => h.Admits operation ∧ AdmitsAll rest (h.perform operation).2

theorem Reachable.performAll {config : Config} {operations : List Operation} {h : Heap}
    (run : Reachable config h) (admitted : h.AdmitsAll operations) :
    Reachable config (h.performAll operations) := by
  induction operations generalizing h with
  | nil => exact run
  | cons operation rest ih => exact ih (.perform operation run admitted.1) admitted.2

end Heap

def Host.single : Host where
  region a size _ := if a.slabs.isEmpty && size == granule then some granule else none
  table _ _ := true

theorem Host.isSound_single : Host.single.IsSound := by
  have granted : ∀ {a : Arena} {size attempt : Nat} {base : Addr},
      Host.single.region a size attempt = some base →
        a.slabs = #[] ∧ size = granule ∧ base = granule := by
    intro a size attempt base region
    unfold single at region
    simp only at region
    split at region
    · next fits =>
      rw [Bool.and_eq_true, Array.isEmpty_iff, beq_iff_eq] at fits
      exact ⟨fits.1, fits.2, (Option.some.inj region).symm⟩
    · simp at region
  refine ⟨fun a size attempt base region => ?_, fun a size attempt base region s hs => ?_⟩
  · obtain ⟨-, rfl, rfl⟩ := granted region
    decide
  · obtain ⟨empty, -, -⟩ := granted region
    simp [empty] at hs

/-- A program with a single type, whose thread has a single word on its stack. -/
def Embedding.sample : Embedding where
  word addr := if addr = 4104 then 69640 else 0
  layout? w := if w = 8 then some (.object "cell" [true]) else none
  slotAddr _ := 0
  host := .single
  hostAgain := .single

theorem Embedding.isSound_sample : Embedding.sample.IsSound :=
  ⟨Host.isSound_single, Host.isSound_single, rfl, fun _ => .alone⟩

namespace Heap

def sampleCaller : Caller := { record := 0, now := { sp := 4096 } }

/-- A heap with four blocks: the first has a handle and refers to the third, the thread points into
the second. The fourth is not blank. -/
def sample : Heap :=
  performAll
    [.root 65536, .register 1 "main" 4112,
      .allocate .sample (some sampleCaller) 4096 .typed,
      .allocate .sample (some sampleCaller) 4096 .typed,
      .allocate .sample (some sampleCaller) 4096 .typed,
      .allocate .sample (some sampleCaller) 4096 .typed,
      .write 65536 8, .write 65544 73728, .write 77832 65536]
    { config := .testing 0, flags := (Config.testing 0).flags, arena := Arena.new 4096 0 }

theorem reachable_sample : Reachable (.testing 0) sample := by
  have trusted := Embedding.isSound_sample
  refine Reachable.performAll (.new rfl)
    ⟨trivial, trivial, ⟨trusted, ?_⟩, ⟨trusted, ?_⟩, ⟨trusted, ?_⟩, ⟨trusted, ?_⟩,
      ⟨by decide, ⟨65536, 4096⟩, ?_, by decide, by decide⟩,
      ⟨by decide, ⟨65536, 4096⟩, ?_, by decide, by decide⟩,
      ⟨by decide, ⟨77824, 4096⟩, ?_, by decide, by decide⟩, trivial⟩
  iterate 4
    · rintro c ⟨⟩
      exact ⟨by decide +kernel, rfl⟩
  · decide +kernel
  · decide +kernel
  · decide +kernel

theorem hasCaller_sample : sample.HasCaller sampleCaller := ⟨by decide +kernel, rfl⟩

end Heap

end MarkSweep
