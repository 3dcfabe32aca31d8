import MarkSweep.Proofs.CollectionExactness
import MarkSweep.Proofs.MarkBlindness

set_option autoImplicit false

/-!
# Heaps that nobody can tell apart

Two heaps are alike if they differ at most in marks, in what a mark phase left on its stack, in the
counts of the safepoint, and in the snapshots of threads that are running. Whatever is done to
alike heaps gives the same answer and leaves alike heaps: a mark phase starts from no marks and an
empty stack, and a thread is scanned only while it is parked.
-/

namespace MarkSweep

theorem error_or_ok_of_map_eq {ε α β : Type} {f : α → β} {x y : Except ε α}
    (same : x.map f = y.map f) :
    (∃ e, x = .error e ∧ y = .error e) ∨ ∃ a b, x = .ok a ∧ y = .ok b ∧ f a = f b := by
  cases x with
  | error e =>
    cases y with
    | error e' => exact .inl ⟨e, rfl, congrArg _ (Except.error.inj same).symm⟩
    | ok b => simp [Except.map] at same
  | ok a =>
    cases y with
    | error e' => simp [Except.map] at same
    | ok b => exact .inr ⟨a, b, rfl, rfl, Except.ok.inj same⟩

namespace ThreadRecord

/-- The record as others may see it. While a thread runs, its snapshot is an old one. -/
def visible (r : ThreadRecord) : ThreadRecord :=
  { r with snapshot := if r.depth = 0 then {} else r.snapshot }

theorem visible_of_isParked {r : ThreadRecord} (parked : r.isParked = true) : r.visible = r := by
  have deep : r.depth ≠ 0 := Nat.ne_of_gt (of_decide_eq_true parked)
  simp [visible, deep]

theorem exists_snapshot {r s : ThreadRecord} (same : r.visible = s.visible) :
    ∃ now, s = { r with snapshot := now } ∧ (r.depth ≠ 0 → now = r.snapshot) := by
  simp only [visible, ThreadRecord.mk.injEq] at same
  obtain ⟨thread, name, stackTop, depth, snapshot, exception, handler, attached⟩ := same
  refine ⟨s.snapshot, ?_, fun deep => ?_⟩
  · rw [thread, name, stackTop, depth, exception, handler, attached]
  · rw [← depth, if_neg deep, if_neg deep] at snapshot
    exact snapshot.symm

theorem visible_update {f : ThreadRecord → ThreadRecord} {r s : ThreadRecord}
    (same : r.visible = s.visible)
    (apart : ∀ now, f { r with snapshot := now } = { f r with snapshot := now })
    (depth : (f r).depth = r.depth) : (f r).visible = (f s).visible := by
  obtain ⟨now, rfl, deep⟩ := exists_snapshot same
  by_cases running : r.depth = 0
  · rw [apart now]
    simp [visible, depth, running]
  · rw [deep running]

theorem visible_park {r s : ThreadRecord} (same : r.visible = s.visible) (now : Snapshot) :
    (r.park now).visible = (s.park now).visible := by
  obtain ⟨old, rfl, deep⟩ := exists_snapshot same
  by_cases running : r.depth = 0
  · simp [park, running]
  · rw [deep running]

theorem visible_unpark {r s : ThreadRecord} (same : r.visible = s.visible) :
    ({ r with depth := r.depth - 1 } : ThreadRecord).visible =
      ({ s with depth := s.depth - 1 } : ThreadRecord).visible := by
  obtain ⟨now, rfl, deep⟩ := exists_snapshot same
  by_cases running : r.depth = 0
  · simp [visible, running]
  · rw [deep running]

end ThreadRecord

namespace Threads

def visible (t : Threads) : Threads := { t with records := t.records.map (·.visible) }

theorem record?_visible (t : Threads) (id : RecordId) :
    t.visible.record? id = (t.record? id).map (·.visible) := by
  simp [visible, record?]

theorem visible_insert (t : Threads) (id : RecordId) :
    t.visible.insert id = (t.insert id).map visible := by
  have current : ∀ r : ThreadRecord, t.visible.current? r.visible.thread = t.current? r.thread :=
    fun _ => rfl
  unfold insert
  rw [record?_visible]
  cases t.record? id with
  | none => rfl
  | some r =>
    simp only [Option.map_some, current]
    cases t.current? r.thread <;> rfl

theorem visible_remove (t : Threads) (thread : ThreadId) :
    t.visible.remove thread = (t.remove thread).map (·.map id visible) := by
  have current : t.visible.current? thread = t.current? thread := rfl
  unfold remove
  rw [current]
  cases t.current? thread <;> rfl

theorem modify_eq_self {t : Threads} {id : RecordId} {f : ThreadRecord → ThreadRecord}
    (same : ∀ r, t.record? id = some r → f r = r) : t.modify id f = t := by
  refine (modify_congr same).trans ?_
  have records : t.records.modify id (fun r => r) = t.records := by
    refine Array.ext_getElem? fun j => ?_
    rw [Array.getElem?_modify]
    split <;> simp
  exact congrArg (fun records => { t with records }) records

theorem record?_modify (t : Threads) (id j : RecordId) (f : ThreadRecord → ThreadRecord) :
    (t.modify id f).record? j = if id = j then (t.record? j).map f else t.record? j :=
  Array.getElem?_modify ..

theorem fst_unpark (t : Threads) (id : RecordId) :
    (t.unpark id).1 =
      if t.depth id = 0 then .error .unbalancedBlocking else .ok (t.depth id) := by
  unfold unpark depth
  cases t.record? id with
  | none => rfl
  | some r =>
    unfold ThreadRecord.unpark
    by_cases running : r.depth = 0 <;> simp [running]

theorem snd_unpark (t : Threads) (id : RecordId) :
    (t.unpark id).2 = t.modify id fun r => { r with depth := r.depth - 1 } := by
  unfold unpark
  cases found : t.record? id with
  | none =>
    refine (modify_eq_self fun r there => ?_).symm
    simp [found] at there
  | some r =>
    by_cases running : r.depth = 0
    · simp only [ThreadRecord.unpark, if_pos running]
      refine (modify_eq_self fun r' there => ?_).symm
      obtain rfl := Option.some.inj (found.symm.trans there)
      have same : r.depth - 1 = r.depth := by omega
      simp only [same]
    · simp only [ThreadRecord.unpark, if_neg running]
      refine modify_congr fun r' there => ?_
      obtain rfl := Option.some.inj (found.symm.trans there)
      rfl

theorem repark_unpark {t : Threads} {id : RecordId} (deep : t.depth id ≠ 0) :
    (t.unpark id).2.modify id ThreadRecord.repark = t := by
  rw [snd_unpark, modify_modify]
  refine modify_eq_self fun r there => ?_
  have same : t.depth id = r.depth := by simp [depth, there]
  have back : r.depth - 1 + 1 = r.depth := Nat.sub_add_cancel (by omega)
  simp only [ThreadRecord.repark, back]

/-- Whether two registries have the same numbers registered and records that are related, number by
number. -/
structure Related (R : RecordId → ThreadRecord → ThreadRecord → Prop) (t u : Threads) : Prop where
  registered : t.registered = u.registered
  records : ∀ id, t.record? id = none ∧ u.record? id = none ∨
    ∃ r s, t.record? id = some r ∧ u.record? id = some s ∧ R id r s

theorem Related.modify {R : RecordId → ThreadRecord → ThreadRecord → Prop} {t u : Threads}
    (related : Related R t u) {id : RecordId} {f g : ThreadRecord → ThreadRecord}
    (here : ∀ r s, t.record? id = some r → u.record? id = some s → R id r s → R id (f r) (g s)) :
    Related R (t.modify id f) (u.modify id g) := by
  refine ⟨related.registered, fun j => ?_⟩
  rw [record?_modify, record?_modify]
  obtain ⟨ht, hu⟩ | ⟨r, s, ht, hu, kin⟩ := related.records j
  · rw [ht, hu]
    simp
  · rw [ht, hu]
    split
    · next same =>
      subst same
      exact .inr ⟨f r, g s, rfl, rfl, here r s ht hu kin⟩
    · exact .inr ⟨r, s, rfl, rfl, kin⟩

theorem modify_id (t : Threads) (id : RecordId) : t.modify id (fun r => r) = t :=
  modify_eq_self fun _ _ => rfl

theorem Related.modify_right {R : RecordId → ThreadRecord → ThreadRecord → Prop} {t u : Threads}
    (related : Related R t u) {id : RecordId} {g : ThreadRecord → ThreadRecord}
    (here : ∀ r s, u.record? id = some s → R id r s → R id r (g s)) :
    Related R t (u.modify id g) := by
  have moved := related.modify (f := fun r => r) fun r s _ => here r s
  rwa [modify_id] at moved

theorem visible_eq_iff {t u : Threads} :
    t.visible = u.visible ↔ Related (fun _ r s => r.visible = s.visible) t u := by
  constructor
  · intro same
    refine ⟨congrArg (·.registered) same, fun id => ?_⟩
    have both : (t.record? id).map (·.visible) = (u.record? id).map (·.visible) := by
      rw [← record?_visible, same, record?_visible]
    cases ht : t.record? id with
    | none =>
      rw [ht, Option.map_none, eq_comm, Option.map_eq_none_iff] at both
      exact .inl ⟨rfl, both⟩
    | some r =>
      rw [ht, Option.map_some, eq_comm, Option.map_eq_some_iff] at both
      obtain ⟨s, hs, looks⟩ := both
      exact .inr ⟨r, s, rfl, hs, looks.symm⟩
  · intro related
    have records : t.visible.records = u.visible.records := by
      refine Array.ext_getElem? fun j => ?_
      have both : t.visible.record? j = u.visible.record? j := by
        rw [record?_visible, record?_visible]
        obtain ⟨ht, hu⟩ | ⟨r, s, ht, hu, looks⟩ := related.records j
        · rw [ht, hu]
        · rw [ht, hu, Option.map_some, Option.map_some, looks]
      exact both
    have registered : t.registered = u.registered := related.registered
    exact congrArg₂ Threads.mk records registered

section Congruence

variable {t u : Threads} (same : t.visible = u.visible)
include same

theorem registered_congr : t.registered = u.registered := congrArg (·.registered) same

theorem current?_congr (thread : ThreadId) : t.current? thread = u.current? thread :=
  congrArg (·.current? thread) same

theorem map_record?_congr {α : Type} {f : ThreadRecord → α} (seen : ∀ r, f r.visible = f r)
    (id : RecordId) : (t.record? id).map f = (u.record? id).map f := by
  obtain ⟨ht, hu⟩ | ⟨r, s, ht, hu, looks⟩ := (visible_eq_iff.1 same).records id
  · rw [ht, hu]
  · rw [ht, hu, Option.map_some, Option.map_some, ← seen r, looks, seen]

theorem depth_congr (id : RecordId) : t.depth id = u.depth id := by
  unfold depth
  rw [map_record?_congr same (fun _ => rfl)]

theorem visible_modify {id : RecordId} {f g : ThreadRecord → ThreadRecord}
    (here : ∀ r s, r.visible = s.visible → (f r).visible = (g s).visible) :
    (t.modify id f).visible = (u.modify id g).visible :=
  visible_eq_iff.2 ((visible_eq_iff.1 same).modify fun r s _ _ => here r s)

theorem create_congr (r : ThreadRecord) :
    (t.create r).1 = (u.create r).1 ∧ (t.create r).2.visible = (u.create r).2.visible := by
  have records : t.records.map (·.visible) = u.records.map (·.visible) :=
    congrArg (·.records) same
  have size := congrArg Array.size records
  rw [Array.size_map, Array.size_map] at size
  refine ⟨size, ?_⟩
  unfold create visible
  rw [Array.map_push, Array.map_push, records, registered_congr same]

theorem insert_cases (id : RecordId) :
    (∃ e, t.insert id = .error e ∧ u.insert id = .error e) ∨
      ∃ t' u', t.insert id = .ok t' ∧ u.insert id = .ok u' ∧ t'.visible = u'.visible :=
  error_or_ok_of_map_eq (by rw [← visible_insert, same, visible_insert])

theorem remove_cases (thread : ThreadId) :
    (∃ e, t.remove thread = .error e ∧ u.remove thread = .error e) ∨
      ∃ p q, t.remove thread = .ok p ∧ u.remove thread = .ok q ∧
        p.map id visible = q.map id visible :=
  error_or_ok_of_map_eq (by rw [← visible_remove, same, visible_remove])

theorem visible_update (id : RecordId) {f : ThreadRecord → ThreadRecord}
    (apart : ∀ r now, f { r with snapshot := now } = { f r with snapshot := now })
    (depth : ∀ r, (f r).depth = r.depth) : (t.modify id f).visible = (u.modify id f).visible :=
  visible_modify same fun r _ looks => ThreadRecord.visible_update looks (apart r) (depth r)

theorem visible_park (id : RecordId) (now : Snapshot) :
    (t.park id now).visible = (u.park id now).visible :=
  visible_modify same fun _ _ looks => ThreadRecord.visible_park looks now

theorem unpark_congr (id : RecordId) :
    (t.unpark id).1 = (u.unpark id).1 ∧ (t.unpark id).2.visible = (u.unpark id).2.visible := by
  rw [fst_unpark, fst_unpark, depth_congr same, snd_unpark, snd_unpark]
  exact ⟨rfl, visible_modify same fun _ _ looks => ThreadRecord.visible_unpark looks⟩

theorem allParked_congr : t.allParked = u.allParked := by
  have key : ∀ v : Threads, v.visible.allParked = v.allParked := by
    intro v
    unfold allParked active
    simp only [record?_visible, List.all_filterMap]
    refine List.all_congr rfl fun e => ?_
    cases v.record? e.2 <;> rfl
  rw [← key, same, key]

/-- Registries that look alike have the same threads, if all are parked. -/
theorem active_congr (parked : t.allParked = true) : t.active = u.active := by
  have key : ∀ v : Threads, v.allParked = true → v.visible.active = v.active := by
    intro v all
    have mapped : v.visible.active = v.active.map (·.visible) := by
      unfold active
      rw [List.map_filterMap]
      simp only [record?_visible]
      rfl
    rw [mapped]
    refine List.map_congr_left (g := id) (fun r hr => ?_) |>.trans (List.map_id _)
    exact ThreadRecord.visible_of_isParked (List.all_eq_true.1 all r hr)
  rw [← key t parked, same, key u (allParked_congr same ▸ parked)]

end Congruence

end Threads

def Embedding.IgnoresMarks (env : Embedding) : Prop :=
  env.host.IgnoresMarks ∧ env.hostAgain.IgnoresMarks

namespace Heap

/-- Whether two heaps differ in nothing that can be told from outside, nor by what they do later. -/
structure Alike (h g : Heap) : Prop where
  config : h.config = g.config
  flags : h.flags = g.flags
  arena : h.arena.clearMarks = g.arena.clearMarks
  roots : h.roots = g.roots
  threads : h.threads.visible = g.threads.visible
  handles : h.handles = g.handles
  nextHandle : h.nextHandle = g.nextHandle
  phase : h.safepoint.phase = g.safepoint.phase
  stats : h.stats = g.stats

theorem Alike.refl (h : Heap) : h.Alike h := ⟨rfl, rfl, rfl, rfl, rfl, rfl, rfl, rfl, rfl⟩

theorem Alike.trans {h g k : Heap} (first : h.Alike g) (second : g.Alike k) : h.Alike k where
  config := first.config.trans second.config
  flags := first.flags.trans second.flags
  arena := first.arena.trans second.arena
  roots := first.roots.trans second.roots
  threads := first.threads.trans second.threads
  handles := first.handles.trans second.handles
  nextHandle := first.nextHandle.trans second.nextHandle
  phase := first.phase.trans second.phase
  stats := first.stats.trans second.stats

/-- Whether something done to two heaps gives the same answer and leaves them alike. -/
def Agree {α : Type} (x y : α × Heap) : Prop := x.1 = y.1 ∧ x.2.Alike y.2

theorem Agree.exists {α : Type} {x y : α × Heap} (agree : Agree x y) :
    ∃ a h g, x = (a, h) ∧ y = (a, g) ∧ h.Alike g :=
  ⟨x.1, x.2, y.2, rfl, Prod.ext agree.1.symm rfl, agree.2⟩

theorem Agree.map {α β : Type} {x y : α × Heap} (agree : Agree x y) (f : α → β) :
    Agree (x.map f id) (y.map f id) := ⟨congrArg f agree.1, agree.2⟩

section Likeness

variable {h g : Heap} (alike : h.Alike g)
include alike

theorem alike_addRoot (addr : Addr) : (h.addRoot addr).Alike (g.addRoot addr) := by
  unfold addRoot
  split
  · next slot _ => exact { alike with roots := congrArg (·.add slot) alike.roots }
  · exact alike

theorem alike_removeRoot (addr : Addr) : (h.removeRoot addr).Alike (g.removeRoot addr) := by
  unfold removeRoot
  split
  · next slot _ => exact { alike with roots := congrArg (·.erase slot) alike.roots }
  · exact alike

theorem agree_root (value : UInt64) : Agree (h.root value) (g.root value) := by
  refine ⟨alike.nextHandle, { alike with roots := ?_, handles := ?_, nextHandle := ?_ }⟩
  · change h.roots.add (.handle h.nextHandle) = g.roots.add (.handle g.nextHandle)
    rw [alike.roots, alike.nextHandle]
  · change h.handles.insert h.nextHandle value = g.handles.insert g.nextHandle value
    rw [alike.handles, alike.nextHandle]
  · exact congrArg (· + 1) alike.nextHandle

theorem alike_setHandle (id : HandleId) (value : UInt64) :
    (h.setHandle id value).Alike (g.setHandle id value) := by
  unfold setHandle
  rw [alike.handles]
  split
  · exact { alike with handles := rfl }
  · exact alike

theorem agree_dropHandle (id : HandleId) : Agree (h.dropHandle id) (g.dropHandle id) := by
  unfold dropHandle
  rw [alike.handles]
  split
  · exact ⟨rfl, { alike with
      roots := congrArg (·.erase (.handle id)) alike.roots, handles := rfl }⟩
  · exact ⟨rfl, alike⟩

theorem agree_register (thread : ThreadId) (name : String) (stackTop : Addr) :
    Agree (h.register thread name stackTop) (g.register thread name stackTop) := by
  have created := Threads.create_congr alike.threads { thread, name, stackTop }
  unfold register
  rw [Threads.current?_congr alike.threads]
  cases g.threads.current? thread with
  | some id =>
    simp only [Threads.map_record?_congr alike.threads (f := (·.name)) fun _ => rfl]
    exact ⟨rfl, alike⟩
  | none =>
    cases hc : h.threads.create { thread, name, stackTop } with
    | mk id t =>
      cases gc : g.threads.create { thread, name, stackTop } with
      | mk id' u =>
        rw [hc, gc] at created
        obtain ⟨rfl, same⟩ := created
        simp only at same ⊢
        obtain ⟨e, ht, hu⟩ | ⟨t', u', ht, hu, same'⟩ := Threads.insert_cases same id
        · rw [ht, hu]
          exact ⟨rfl, { alike with threads := same }⟩
        · rw [ht, hu]
          refine ⟨rfl, { alike with threads := same', roots := ?_ }⟩
          exact congrArg (fun r : Roots => (r.add (.exception id)).add (.handler id)) alike.roots

theorem agree_unregister (id : RecordId) : Agree (h.unregister id) (g.unregister id) := by
  have detached : (h.threads.modify id fun r => { r with attached := false }).visible =
      (g.threads.modify id fun r => { r with attached := false }).visible :=
    Threads.visible_update alike.threads id (fun _ _ => rfl) fun _ => rfl
  unfold unregister
  obtain ⟨ht, hu⟩ | ⟨r, s, ht, hu, looks⟩ := (Threads.visible_eq_iff.1 alike.threads).records id
  · rw [ht, hu]
    exact ⟨rfl, alike⟩
  · obtain ⟨now, rfl, -⟩ := ThreadRecord.exists_snapshot looks
    rw [ht, hu]
    simp only
    split
    · exact ⟨rfl, alike⟩
    · obtain ⟨e, ht, hu⟩ | ⟨p, q, ht, hu, same⟩ := Threads.remove_cases detached r.thread
      · rw [ht, hu]
        exact ⟨rfl, { alike with threads := detached }⟩
      · rw [ht, hu]
        refine ⟨rfl, { alike with threads := congrArg Prod.snd same, roots := ?_ }⟩
        exact congrArg (fun r : Roots => (r.erase (.exception id)).erase (.handler id)) alike.roots

theorem alike_setException (id : RecordId) (value : UInt64) :
    (h.setException id value).Alike (g.setException id value) :=
  { alike with threads := Threads.visible_update alike.threads id (fun _ _ => rfl) fun _ => rfl }

theorem alike_setHandler (id : RecordId) (value : UInt64) :
    (h.setHandler id value).Alike (g.setHandler id value) :=
  { alike with threads := Threads.visible_update alike.threads id (fun _ _ => rfl) fun _ => rfl }

theorem alike_enter (c : Caller) : (h.enter c).Alike (g.enter c) :=
  { alike with threads := Threads.visible_park alike.threads c.record c.now }

theorem agree_unpark (id : RecordId) : Agree (h.unpark id) (g.unpark id) :=
  have ⟨result, same⟩ := Threads.unpark_congr alike.threads id
  ⟨result, { alike with threads := same }⟩

theorem alike_parkedBy (caller : Option Caller) :
    (h.parkedBy caller).Alike (g.parkedBy caller) := by
  cases caller with
  | none => exact alike
  | some c => exact alike_enter alike c

theorem alike_resumedBy (caller : Option Caller) :
    (h.resumedBy caller).Alike (g.resumedBy caller) := by
  cases caller with
  | none => exact alike
  | some c => exact (agree_unpark alike c.record).2

theorem stopRequested_congr : h.safepoint.stopRequested = g.safepoint.stopRequested := by
  unfold Safepoint.stopRequested
  rw [alike.phase]

theorem agree_leave (id : RecordId) : Agree (h.leave id) (g.leave id) := by
  obtain ⟨result, h', g', hu, gu, alike'⟩ := (agree_unpark alike id).exists
  unfold leave
  rw [hu, gu]
  cases result with
  | error e => exact ⟨rfl, alike'⟩
  | ok previous =>
    simp only [stopRequested_congr alike']
    split
    · exact ⟨rfl, alike'⟩
    -- A thread that has to wait goes back in, so its coming out does not show.
    · refine ⟨rfl, { alike' with threads := ?_ }⟩
      have back : ∀ {k k' : Heap}, k.unpark id = (.ok previous, k') →
          k'.threads.modify id ThreadRecord.repark = k.threads := by
        intro k k' left
        have popped : (k.threads.unpark id).1 = .ok previous := congrArg Prod.fst left
        have out : (k.threads.unpark id).2 = k'.threads := congrArg (fun r => r.2.threads) left
        rw [← out]
        refine Threads.repark_unpark fun running => ?_
        rw [Threads.fst_unpark, if_pos running] at popped
        simp at popped
      simp only [back hu, back gu]
      exact alike.threads

theorem agree_poll (c : Caller) : Agree (h.poll c) (g.poll c) := by
  have polled : Alike { h with safepoint := h.safepoint.recordPoll }
      { g with safepoint := g.safepoint.recordPoll } := { alike with phase := alike.phase }
  unfold poll
  rw [stopRequested_congr alike]
  split
  · exact agree_leave (alike_enter polled c) c.record
  · exact ⟨rfl, alike⟩

theorem agree_whileParked {α : Type} {operation : Heap → Outcome α × Heap}
    (agree : ∀ {h g : Heap}, h.Alike g → Agree (operation h) (operation g))
    (caller : Option Caller) :
    Agree (h.whileParked caller operation) (g.whileParked caller operation) := by
  cases caller with
  | none => exact agree alike
  | some c =>
    obtain ⟨result, h', g', ho, go, alike'⟩ := (agree (alike_enter alike c)).exists
    obtain ⟨popped, h'', g'', hu, gu, alike''⟩ := (agree_unpark alike' c.record).exists
    unfold whileParked
    simp only [ho, go]
    cases result with
    | waits => exact ⟨rfl, alike⟩
    | done a =>
      simp only [hu, gu]
      cases popped <;> exact ⟨rfl, alike''⟩
    | failed e =>
      simp only [hu, gu]
      cases popped <;> exact ⟨rfl, alike''⟩

theorem slotValue_congr (around : Surroundings) : h.slotValue around = g.slotValue around := by
  funext slot
  cases slot with
  | cell addr => rfl
  | handle id => exact congrArg (·.getD id 0) alike.handles
  | exception id =>
    have same := Threads.map_record?_congr alike.threads (f := (·.exception)) (fun _ => rfl) id
    exact congrArg (·.getD 0) same
  | handler id =>
    have same := Threads.map_record?_congr alike.threads (f := (·.handler)) (fun _ => rfl) id
    exact congrArg (·.getD 0) same

theorem rootValues_congr (around : Surroundings) : h.rootValues around = g.rootValues around := by
  unfold rootValues
  rw [alike.roots, slotValue_congr alike]

theorem mark_congr (parked : h.threads.allParked = true) (env : Embedding) :
    Agree (h.mark env) (g.mark env) ∧ (h.mark env).2.arena = (g.mark env).2.arena := by
  have fresh : ∀ k : Heap, ∀ roots threads,
      ({ arena := k.arena.clearMarks, pending := k.pending } : Marker).markPhaseBy env.drain
          env.toMarkContext roots threads =
        ({ arena := k.arena.clearMarks } : Marker).markPhaseBy env.drain env.toMarkContext roots
          threads := fun _ _ _ => rfl
  -- Marks are cleared and the stack is emptied before anything is marked.
  unfold mark
  simp only [fresh]
  rw [alike.arena, rootValues_congr alike, Threads.active_congr alike.threads parked]
  exact ⟨⟨rfl, { alike with arena := rfl }⟩, rfl⟩

theorem agree_sweep (arena : h.arena = g.arena) : Agree h.sweep g.sweep := by
  unfold sweep
  rw [arena]
  exact ⟨rfl, { alike with arena := rfl }⟩

theorem alike_resumeWorld : h.resumeWorld.Alike g.resumeWorld := { alike with phase := rfl }

end Likeness

/-- Whether other threads do the same to heaps that are alike, and leave the blocks alone. -/
structure Impartial {α : Type} (others : Bystanders α) : Prop extends Calm others where
  stopping : ∀ {h g : Heap}, h.Alike g → (others.whileStopping h).Alike (others.whileStopping g)
  stopped : ∀ {h g : Heap}, h.Alike g → Agree (others.whileStopped h) (others.whileStopped g)

theorem impartial_none : Impartial Bystanders.none :=
  { calm_none with stopping := fun alike => alike, stopped := fun alike => ⟨rfl, alike⟩ }

section Collecting

variable {α : Type} {h g : Heap} (alike : h.Alike g) (env : Embedding) (caller : Option Caller)
include alike

theorem stopWorld_congr (patience : Patience) (whileStopping : Heap → Heap)
    (stopping : ∀ {h g : Heap}, h.Alike g → (whileStopping h).Alike (whileStopping g)) :
    ∃ stop s t, h.stopWorld patience whileStopping = (stop, s) ∧
      g.stopWorld patience whileStopping = (stop, t) ∧ s.Alike t ∧
        (stop = .achieved → s.threads.allParked = true) := by
  have asked : Alike { h with safepoint := h.safepoint.request }
      { g with safepoint := g.safepoint.request } := { alike with phase := rfl }
  have alike' := stopping asked
  have parked := Threads.allParked_congr alike'.threads
  unfold stopWorld
  simp only [← parked]
  split
  · next all => exact ⟨_, _, _, rfl, rfl, { alike' with phase := rfl }, fun _ => all⟩
  · cases patience with
    | limited => exact ⟨_, _, _, rfl, rfl, { alike' with phase := rfl }, nofun⟩
    | forever => exact ⟨_, _, _, rfl, rfl, alike, nofun⟩

theorem agree_collectParked (patience : Patience) {others : Bystanders α}
    (impartial : Impartial others) :
    Agree (h.collectParked env patience others) (g.collectParked env patience others) := by
  obtain ⟨stop, s, t, hs, gs, stopped, all⟩ :=
    stopWorld_congr alike patience others.whileStopping impartial.stopping
  unfold collectParked
  rw [hs, gs]
  cases stop with
  | waits => exact ⟨rfl, stopped⟩
  | abandoned => exact ⟨rfl, stopped⟩
  | achieved =>
    obtain ⟨agree, arena⟩ := mark_congr stopped (all rfl) env
    obtain ⟨result, s', t', hm, gm, marked⟩ := agree.exists
    rw [hm, gm] at arena
    simp only [hm, gm]
    cases result with
    | error e => exact ⟨rfl, alike_resumeWorld marked⟩
    | ok mark =>
      obtain ⟨a, k, l, ho, go, met⟩ := (impartial.stopped marked).exists
      -- A sweep reads the marks, so it takes equal arenas and not just alike heaps.
      have blocks : k.arena = l.arena := by
        have hk := impartial.whileStopped s'
        have hl := impartial.whileStopped t'
        rw [ho] at hk
        rw [go] at hl
        exact hk.trans (arena.trans hl.symm)
      obtain ⟨sweep, k', l', hw, gw, swept⟩ := (agree_sweep met blocks).exists
      simp only [ho, go, hw, gw]
      refine ⟨rfl, { alike_resumeWorld swept with stats := ?_ }⟩
      exact congrArg (·.recordCollection env.nanos sweep) swept.stats

theorem agree_collectAmong (patience : Patience) {others : Bystanders α}
    (impartial : Impartial others) :
    Agree (h.collectAmong env caller patience others) (g.collectAmong env caller patience others) :=
  agree_whileParked alike (fun alike => agree_collectParked alike env patience impartial) caller

theorem agree_collect (patience : Patience) :
    Agree (h.collect env caller patience) (g.collect env caller patience) := by
  obtain ⟨result, h', g', hc, gc, alike'⟩ :=
    (agree_collectAmong alike env caller patience impartial_none).exists
  unfold collect
  rw [hc, gc]
  exact ⟨rfl, alike'⟩

theorem collectionIsDue_congr : h.collectionIsDue = g.collectionIsDue := by
  have size : h.arena.stats = g.arena.stats := by
    rw [← Arena.stats_clearMarks, alike.arena, Arena.stats_clearMarks]
  unfold collectionIsDue
  rw [alike.stats, size, alike.config]

theorem agree_maybeCollect :
    Agree (h.maybeCollect env caller) (g.maybeCollect env caller) := by
  unfold maybeCollect
  rw [alike.flags, collectionIsDue_congr alike]
  split
  · exact ⟨rfl, alike⟩
  · split
    · exact (agree_collect alike env caller .forever).map (·.map fun _ => true)
    · exact ⟨rfl, alike⟩

theorem agree_allocateNow {host : Host} (blind : host.IgnoresMarks) (size : Nat)
    (kind : BlockKind) : Agree (h.allocateNow host size kind) (g.allocateNow host size kind) := by
  have answered : (h.arena.allocate host size kind).map id Arena.clearMarks =
      (g.arena.allocate host size kind).map id Arena.clearMarks := by
    rw [← Arena.allocate_clearMarks _ blind, alike.arena, Arena.allocate_clearMarks _ blind]
  unfold allocateNow
  cases ha : h.arena.allocate host size kind with
  | mk result a =>
    cases ga : g.arena.allocate host size kind with
    | mk result' b =>
      rw [ha, ga] at answered
      obtain ⟨rfl, arena⟩ : result = result' ∧ a.clearMarks = b.clearMarks :=
        Prod.mk.inj answered
      cases result with
      | error e => exact ⟨rfl, { alike with arena := arena }⟩
      | ok block =>
        refine ⟨rfl, { alike with arena := arena, stats := ?_ }⟩
        exact congrArg (·.recordAllocation block.size) alike.stats

variable {env}

theorem agree_allocate (blind : env.IgnoresMarks) (size : Nat) (kind : BlockKind) :
    Agree (h.allocate env caller size kind) (g.allocate env caller size kind) := by
  obtain ⟨due, h₁, g₁, hm, gm, alike₁⟩ := (agree_maybeCollect alike env caller).exists
  unfold allocate
  rw [hm, gm]
  cases due with
  | waits => exact ⟨rfl, alike₁⟩
  | failed e => exact ⟨rfl, alike₁⟩
  | done due =>
    obtain ⟨result, h₂, g₂, ha, ga, alike₂⟩ := (agree_allocateNow alike₁ blind.1 size kind).exists
    simp only [ha, ga]
    cases result with
    | ok b => exact ⟨rfl, alike₂⟩
    | error e =>
      simp only
      split
      · obtain ⟨collected, h₃, g₃, hc, gc, alike₃⟩ :=
          (agree_collect alike₂ env caller .forever).exists
        simp only [hc, gc]
        cases collected with
        | waits => exact ⟨rfl, alike₃⟩
        | failed e => exact ⟨rfl, alike₃⟩
        | done report =>
          exact (agree_allocateNow alike₃ blind.2 size kind).map Outcome.ofExcept
      · exact ⟨rfl, alike₂⟩

variable (env)

omit alike in
theorem alike_foldl {β : Type} {f : Heap → β → Heap}
    (step : ∀ {h g : Heap}, h.Alike g → ∀ b, (f h b).Alike (f g b)) (bs : List β) {h g : Heap}
    (alike : h.Alike g) : (bs.foldl f h).Alike (bs.foldl f g) := by
  induction bs generalizing h g with
  | nil => exact alike
  | cons b bs ih => exact ih (step alike b)

theorem agree_collectPolled (pollers : List Caller) :
    Agree (h.collectPolled env caller pollers) (g.collectPolled env caller pollers) := by
  have impartial : Impartial
      ({ whileStopping := fun h => pollers.foldl (fun h c => (h.poll c).2) h
         whileStopped := fun h => ((), h) } : Bystanders Unit) :=
    { whileStopping := arena_foldl_poll pollers
      whileStopped := fun _ => rfl
      stopping := alike_foldl (fun alike c => (agree_poll alike c).2) pollers
      stopped := fun alike => ⟨rfl, alike⟩ }
  obtain ⟨result, h', g', hc, gc, alike'⟩ :=
    (agree_collectAmong alike env caller .forever impartial).exists
  have left := alike_foldl (fun alike (c : Caller) => (agree_leave alike c.record).2) pollers alike'
  unfold collectPolled
  simp only [hc, gc]
  cases result with
  | waits => exact ⟨rfl, alike'⟩
  | done answer => exact ⟨rfl, left⟩
  | failed e => exact ⟨rfl, left⟩

theorem agree_collectLeft (visitor : RecordId) :
    Agree (h.collectLeft env caller visitor) (g.collectLeft env caller visitor) := by
  have impartial : Impartial
      ({ whileStopping := fun h => h
         whileStopped := fun h => h.leave visitor } : Bystanders (Except Error Leaving)) :=
    { whileStopping := fun _ => rfl
      whileStopped := fun h => arena_leave h visitor
      stopping := fun alike => alike
      stopped := fun alike => agree_leave alike visitor }
  obtain ⟨result, h', g', hc, gc, alike'⟩ :=
    (agree_collectAmong alike env caller .forever impartial).exists
  unfold collectLeft
  simp only [hc, gc]
  cases result with
  | waits => exact ⟨rfl, alike'⟩
  | failed e => exact ⟨rfl, alike'⟩
  | done answer =>
    cases answer with
    | none => exact ⟨rfl, alike'⟩
    | some met =>
      obtain ⟨report, result⟩ := met
      cases result with
      | error e => exact ⟨rfl, alike'⟩
      | ok leaving =>
        cases leaving with
        | left => exact ⟨rfl, alike'⟩
        | waits =>
          exact (agree_leave alike' visitor).map fun result =>
            Outcome.done (some (report, result.map fun _ => ()))

variable {env}

theorem agree_collectAllocating (blind : env.IgnoresMarks) (visitor : Option Caller) (size : Nat)
    (kind : BlockKind) :
    Agree (h.collectAllocating env caller visitor size kind)
      (g.collectAllocating env caller visitor size kind) := by
  have impartial : Impartial
      ({ whileStopping := fun h => h
         whileStopped := fun h => ((), visitor.elim h h.enter) } : Bystanders Unit) :=
    { whileStopping := fun _ => rfl
      whileStopped := fun h => arena_parkedBy h visitor
      stopping := fun alike => alike
      stopped := fun alike => ⟨rfl, alike_parkedBy alike visitor⟩ }
  obtain ⟨result, h', g', hc, gc, alike'⟩ :=
    (agree_collectAmong alike env caller .forever impartial).exists
  unfold collectAllocating
  simp only [hc, gc]
  cases result with
  | waits => exact ⟨rfl, alike'⟩
  | failed e => exact ⟨rfl, alike'⟩
  | done answer =>
    cases answer with
    | none => exact ⟨rfl, alike'⟩
    | some met =>
      have left := alike_resumedBy alike' visitor
      exact (agree_allocate left visitor blind size kind).map fun result =>
        Outcome.done (some (met.1, result))

variable (env)

theorem image_congr (parked : h.threads.allParked = true) : h.image env = g.image env := by
  have records : (h.arena.slabs.toList.mergeSort fun s t => s.page.base ≤ t.page.base).map
        (·.record) =
      (g.arena.slabs.toList.mergeSort fun s t => s.page.base ≤ t.page.base).map (·.record) := by
    rw [← Arena.pageRecords_clearMarks, alike.arena, Arena.pageRecords_clearMarks]
  have types : h.typesInUse = g.typesInUse := by
    unfold typesInUse
    rw [← Arena.typeWords_clearMarks, alike.arena, Arena.typeWords_clearMarks]
  have values : h.slotValue env.toSurroundings = g.slotValue env.toSurroundings :=
    slotValue_congr alike env.toSurroundings
  unfold image
  rw [records, types, values, alike.roots, Threads.active_congr alike.threads parked]

theorem agree_dump (limit : Option Nat) :
    Agree (h.dump env caller limit) (g.dump env caller limit) := by
  refine agree_whileParked alike (fun {h g} alike => ?_) caller
  obtain ⟨stop, s, t, hs, gs, stopped, all⟩ :=
    stopWorld_congr alike .forever (fun h => h) fun alike => alike
  simp only [hs, gs]
  cases stop with
  | waits => exact ⟨rfl, stopped⟩
  | abandoned => exact ⟨rfl, stopped⟩
  | achieved =>
    simp only [image_congr stopped env (all rfl)]
    exact ⟨rfl, alike_resumeWorld stopped⟩

end Collecting

end Heap

def Operation.IgnoresMarks : Operation → Prop
  | .allocate env _ _ _ | .collectAllocating env _ _ _ _ => env.IgnoresMarks
  | _ => True

namespace Heap

def answers : List Operation → Heap → List Answer
  | [], _ => []
  | operation :: rest, h => (h.perform operation).1 :: answers rest (h.perform operation).2

section Performing

variable {h g : Heap} (alike : h.Alike g)
include alike

theorem agree_query (addr : Addr) :
    Agree (h.perform (.query addr)) (g.perform (.query addr)) := by
  have start : h.isLive addr = g.isLive addr := by
    unfold isLive
    rw [← Arena.isBlockStart_clearMarks, alike.arena, Arena.isBlockStart_clearMarks]
  have around : h.arena.blockAround? addr = g.arena.blockAround? addr := by
    rw [← Arena.blockAround?_clearMarks, alike.arena, Arena.blockAround?_clearMarks]
  refine ⟨?_, alike⟩
  simp only [perform, isManaged, blockSizeOf?, start, around]

theorem agree_perform {operation : Operation} (blind : operation.IgnoresMarks) :
    Agree (h.perform operation) (g.perform operation) := by
  cases operation with
  | setFlags flags => exact ⟨rfl, { alike with flags := rfl }⟩
  | addRoot addr => exact ⟨rfl, alike_addRoot alike addr⟩
  | removeRoot addr => exact ⟨rfl, alike_removeRoot alike addr⟩
  | root value => exact (agree_root alike value).map Answer.handle
  | setHandle id value => exact ⟨rfl, alike_setHandle alike id value⟩
  | dropHandle id => exact (agree_dropHandle alike id).map Answer.found
  | register thread name stackTop =>
    exact (agree_register alike thread name stackTop).map Answer.registered
  | unregister id => exact (agree_unregister alike id).map Answer.unregistered
  | setException id value => exact ⟨rfl, alike_setException alike id value⟩
  | setHandler id value => exact ⟨rfl, alike_setHandler alike id value⟩
  | enter c => exact ⟨rfl, alike_enter alike c⟩
  | leave id => exact (agree_leave alike id).map Answer.left
  | poll c => exact (agree_poll alike c).map Answer.left
  | write addr w =>
    have arena : (h.arena.write addr w).clearMarks = (g.arena.write addr w).clearMarks := by
      rw [← Arena.write_clearMarks, alike.arena, Arena.write_clearMarks]
    exact ⟨rfl, { alike with arena := arena }⟩
  | allocate env caller size kind =>
    exact (agree_allocate alike caller blind size kind).map Answer.block
  | collect env caller patience =>
    exact (agree_collect alike env caller patience).map Answer.collected
  | maybeCollect env caller => exact (agree_maybeCollect alike env caller).map Answer.wasDue
  | collectPolled env caller pollers =>
    exact (agree_collectPolled alike env caller pollers).map Answer.collected
  | collectLeft env caller visitor =>
    exact (agree_collectLeft alike env caller visitor).map Answer.collectedLeaving
  | collectAllocating env caller visitor size kind =>
    exact (agree_collectAllocating alike caller blind visitor size kind).map
      Answer.collectedAllocating
  | dump env caller limit => exact (agree_dump alike env caller limit).map Answer.dumped
  | query addr => exact agree_query alike addr
  | stats =>
    have size : h.arena.stats = g.arena.stats := by
      rw [← Arena.stats_clearMarks, alike.arena, Arena.stats_clearMarks]
    exact ⟨congrArg₂ Answer.counts size alike.stats, alike⟩

/-- Whatever is done to alike heaps, the answers are the same and the heaps stay alike. -/
theorem answers_congr {operations : List Operation}
    (blind : ∀ operation ∈ operations, operation.IgnoresMarks) :
    h.answers operations = g.answers operations ∧
      (h.performAll operations).Alike (g.performAll operations) := by
  induction operations generalizing h g with
  | nil => exact ⟨rfl, alike⟩
  | cons operation rest ih =>
    rw [List.forall_mem_cons] at blind
    obtain ⟨answer, alike'⟩ := agree_perform alike blind.1
    obtain ⟨later, alike''⟩ := ih alike' blind.2
    exact ⟨congrArg₂ List.cons answer later, alike''⟩

end Performing

end Heap

end MarkSweep
