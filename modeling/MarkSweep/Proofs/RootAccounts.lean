import Mathlib.Data.List.Perm.Basic
import MarkSweep.Proofs.CollectionExactness
import MarkSweep.Proofs.HeapLogs
import MarkSweep.Proofs.RootOwners

set_option autoImplicit false

/-!
# Accounts of the root registry

Whatever a program does, the registry holds every slot as often as its owner has it there: the two
slots of a registered record and the slot of a handle once, a cell as often as it was added and not
yet removed. A mark phase visits what the registry holds, once for each occurrence.
-/

namespace MarkSweep

namespace Roots

variable {r : Roots} {slot other : RootSlot}

theorem remove_of_not_mem (unknown : slot ∉ r.slots) : r.remove slot = (false, r) := by
  rw [remove, Array.idxOf?_eq_none_iff.2 unknown]

/-- What remains after a removal are the other slots in some order, since the last one moves into
the gap. -/
theorem remove_of_mem (known : slot ∈ r.slots) :
    (r.remove slot).1 = true ∧
      (r.remove slot).2.slots.toList.Perm (r.slots.toList.erase slot) := by
  cases place : r.slots.idxOf? slot with
  | none => exact absurd known (Array.idxOf?_eq_none_iff.1 place)
  | some i =>
    have found : r.slots.toList.idxOf? slot = some i := by
      rw [← place, ← List.idxOf?_toArray, Array.toArray_toList]
    obtain ⟨inside, -, -⟩ := List.idxOf?_eq_some_iff.1 found
    cases ending : r.slots.back? with
    | none =>
      rw [Array.back?_eq_none_iff] at ending
      simp [ending] at inside
    | some last =>
      rw [← Array.getLast?_toList] at ending
      simp only [remove, place, ← Array.getLast?_toList, ending, true_and]
      rw [Array.toList_pop, Array.toList_setIfInBounds, List.erase_eq_eraseIdx, found]
      -- The last slot is last also with itself in the gap, be it the gap or not.
      have moved : (r.slots.toList.set i last).getLast? = some last := by
        rw [List.getLast?_eq_getElem?, List.length_set, List.getElem?_set]
        split
        · rfl
        · rw [← List.getLast?_eq_getElem?, ending]
      have whole := List.dropLast_append_getLast? last moved
      have cycled := (List.perm_append_singleton last _).symm.trans
        (whole ▸ List.set_perm_cons_eraseIdx inside last)
      exact cycled.cons_inv

theorem remove_fst : (r.remove slot).1 = true ↔ slot ∈ r.slots := by
  constructor
  · intro done
    by_contra unknown
    simp [remove_of_not_mem unknown] at done
  · exact fun known => (remove_of_mem known).1

theorem count_add (r : Roots) (slot other : RootSlot) :
    (r.add slot).slots.count other = r.slots.count other + if slot = other then 1 else 0 := by
  rw [add, Array.count_push]
  simp only [beq_iff_eq]

theorem erase_of_not_mem (unknown : slot ∉ r.slots) : r.erase slot = r := by
  rw [erase, remove_of_not_mem unknown]

theorem erase_perm (r : Roots) (slot : RootSlot) :
    (r.erase slot).slots.toList.Perm (r.slots.toList.erase slot) := by
  by_cases known : slot ∈ r.slots
  · exact (remove_of_mem known).2
  · rw [erase_of_not_mem known, List.erase_of_not_mem (by simpa using known)]

theorem count_erase (r : Roots) (slot other : RootSlot) :
    (r.erase slot).slots.count other = r.slots.count other - if slot = other then 1 else 0 := by
  have remaining := (erase_perm r slot).count_eq other
  rw [List.count_erase, Array.count_toList, Array.count_toList] at remaining
  simp only [beq_iff_eq] at remaining
  exact remaining

end Roots

/-- Whether the attached records are those under which their threads are registered. -/
structure Threads.Rostered (t : Threads) : Prop extends t.Enrolled where
  attached : ∀ id r, t.record? id = some r → (r.attached = true ↔ (r.thread, id) ∈ t.registered)

namespace Threads

variable {t u : Threads} {id : RecordId} {thread : ThreadId} {r : ThreadRecord}

theorem isRegistered_iff : t.isRegistered id = true ↔ ∃ thread, (thread, id) ∈ t.registered := by
  simp [isRegistered]

theorem mem_of_current? (known : t.current? thread = some id) : (thread, id) ∈ t.registered := by
  obtain ⟨before, after, split, -⟩ := List.lookup_eq_some_iff.1 known
  simp [split]

theorem current?_of_mem (enrolled : t.Enrolled) (listed : (thread, id) ∈ t.registered) :
    t.current? thread = some id := by
  cases known : t.current? thread with
  | none =>
    have unknown := List.lookup_eq_none_iff.1 known _ listed
    simp at unknown
  | some j =>
    have same := List.inj_on_of_nodup_map enrolled.distinct (mem_of_current? known) listed rfl
    rw [(Prod.mk.inj same).2]

theorem Rostered.attached_iff (rostered : t.Rostered) (found : t.record? id = some r) :
    r.attached = true ↔ t.isRegistered id = true := by
  rw [rostered.attached id r found, isRegistered_iff]
  constructor
  · exact fun listed => ⟨r.thread, listed⟩
  · rintro ⟨thread, listed⟩
    obtain ⟨r', found', rfl⟩ := rostered.recorded _ listed
    rwa [Option.some.inj (found.symm.trans found')]

theorem SameMembers.rostered (same : t.SameMembers u) (rostered : t.Rostered) : u.Rostered := by
  have kept : ∀ id r, u.record? id = some r →
      ∃ r', t.record? id = some r' ∧ r'.thread = r.thread ∧ r'.attached = r.attached := by
    intro id r found
    have members := same.records id
    rw [found, Option.map_some, eq_comm, Option.map_eq_some_iff] at members
    obtain ⟨r', found', parts⟩ := members
    exact ⟨r', found', Prod.mk.inj parts⟩
  refine ⟨enrolled_of_same rostered.toEnrolled same.registered ?_, ?_⟩
  · intro id r found
    have members := same.records id
    rw [found, Option.map_some, Option.map_eq_some_iff] at members
    obtain ⟨r', found', parts⟩ := members
    exact ⟨r', found', (Prod.mk.inj parts).1⟩
  · intro id r found
    obtain ⟨r', found', thread, attached⟩ := kept id r found
    rw [← thread, ← attached, same.registered]
    exact rostered.attached id r' found'

def joined (t : Threads) (r : ThreadRecord) : Threads where
  records := t.records.push r
  registered := t.registered ++ [(r.thread, t.records.size)]

def parted (t : Threads) (thread : ThreadId) (id : RecordId) : Threads :=
  { t.modify id fun r => { r with attached := false } with
    registered := t.registered.filter fun e => e.1 ≠ thread }

theorem insert_create (unknown : t.current? r.thread = none) :
    (t.create r).2.insert (t.create r).1 = .ok (t.joined r) := by
  have found : (t.create r).2.record? (t.create r).1 = some r := Array.getElem?_push_size
  have absent : (t.create r).2.current? r.thread = none := unknown
  rw [insert, found]
  simp only [absent]
  rfl

theorem id_lt_of_mem (enrolled : t.Enrolled) (listed : (thread, id) ∈ t.registered) :
    id < t.records.size := by
  obtain ⟨r, found, -⟩ := enrolled.recorded _ listed
  exact (Array.getElem?_eq_some_iff.1 found).1

theorem rostered_joined (rostered : t.Rostered) (unknown : t.current? r.thread = none)
    (attached : r.attached = true) : (t.joined r).Rostered := by
  refine ⟨enrolled_insert (enrolled_create rostered.toEnrolled r) (insert_create unknown), ?_⟩
  intro id r' found
  have listed : ∀ e, e ∈ (t.joined r).registered ↔
      e ∈ t.registered ∨ e = (r.thread, t.records.size) := by simp [joined]
  rw [listed, Prod.mk.injEq]
  change (t.records.push r)[id]? = some r' at found
  rw [Array.getElem?_push] at found
  split at found
  · next new =>
    obtain rfl := Option.some.inj found
    simp [new, attached]
  · next old =>
    rw [rostered.attached id r' found]
    simp [old]

theorem rostered_parted (rostered : t.Rostered) (found : t.record? id = some r)
    (listed : (r.thread, id) ∈ t.registered) : (t.parted r.thread id).Rostered := by
  have members : ∀ e, e ∈ (t.parted r.thread id).registered ↔
      e ∈ t.registered ∧ e.1 ≠ r.thread := by simp [parted]
  have records : ∀ j, (t.parted r.thread id).record? j =
      (t.modify id fun r => { r with attached := false }).record? j := fun _ => rfl
  refine ⟨⟨?_, ?_⟩, ?_⟩
  · exact rostered.distinct.sublist (List.filter_sublist.map _)
  · intro e he
    have before := enrolled_modify rostered.toEnrolled id
      (f := fun r => { r with attached := false }) fun _ => rfl
    exact before.recorded e ((members e).1 he).1
  · intro j r' found'
    rw [records, record?_modify] at found'
    rw [members]
    split at found'
    · next same =>
      subst same
      rw [found, Option.map_some] at found'
      obtain rfl := Option.some.inj found'
      simp
    · next other =>
      rw [rostered.attached j r' found']
      refine ⟨fun listed' => ⟨listed', fun same => other ?_⟩, And.left⟩
      have known := current?_of_mem rostered.toEnrolled listed
      have known' := current?_of_mem rostered.toEnrolled listed'
      rw [show r'.thread = r.thread from same] at known'
      exact Option.some.inj (known.symm.trans known')

theorem thread_unique {thread' : ThreadId} (enrolled : t.Enrolled)
    (listed : (thread, id) ∈ t.registered) (listed' : (thread', id) ∈ t.registered) :
    thread = thread' := by
  obtain ⟨r, found, rfl⟩ := enrolled.recorded _ listed
  obtain ⟨r', found', rfl⟩ := enrolled.recorded _ listed'
  exact congrArg _ (Option.some.inj (found.symm.trans found'))

theorem isRegistered_joined (id : RecordId) :
    (t.joined r).isRegistered id = (t.isRegistered id || t.records.size == id) := by
  simp [isRegistered, joined]

theorem isRegistered_parted (enrolled : t.Enrolled) (listed : (thread, id) ∈ t.registered)
    (j : RecordId) : (t.parted thread id).isRegistered j = (t.isRegistered j && id != j) := by
  rw [Bool.eq_iff_iff, Bool.and_eq_true, isRegistered_iff, isRegistered_iff, bne_iff_ne]
  have members : ∀ e, e ∈ (t.parted thread id).registered ↔
      e ∈ t.registered ∧ e.1 ≠ thread := by simp [parted]
  constructor
  · rintro ⟨thread', listed'⟩
    obtain ⟨before, other⟩ := (members _).1 listed'
    refine ⟨⟨thread', before⟩, ?_⟩
    rintro rfl
    exact other (thread_unique enrolled before listed)
  · rintro ⟨⟨thread', before⟩, other⟩
    refine ⟨thread', (members _).2 ⟨before, ?_⟩⟩
    rintro rfl
    have known := current?_of_mem enrolled listed
    exact other (Option.some.inj (known.symm.trans (current?_of_mem enrolled before)))

theorem isRegistered_size (enrolled : t.Enrolled) : t.isRegistered t.records.size = false := by
  rw [Bool.eq_false_iff, ne_eq, isRegistered_iff]
  rintro ⟨thread, listed⟩
  exact absurd (id_lt_of_mem enrolled listed) (Nat.lt_irrefl _)

end Threads

namespace Heap

variable {h g : Heap} {calls : List RootCall}

theorem register_cases (h : Heap) (thread : ThreadId) (name : String) (stackTop : Addr) :
    (∃ id, h.threads.current? thread = some id ∧ h.register thread name stackTop =
      (.error (.alreadyRegistered (((h.threads.record? id).map (·.name)).getD name)), h)) ∨
    h.threads.current? thread = none ∧ h.register thread name stackTop =
      (.ok h.threads.records.size,
        { h with
          threads := h.threads.joined { thread, name, stackTop }
          roots := (h.roots.add (.exception h.threads.records.size)).add
            (.handler h.threads.records.size) }) := by
  cases known : h.threads.current? thread with
  | some id =>
    refine .inl ⟨id, rfl, ?_⟩
    rw [register]
    simp only [known]
  | none =>
    refine .inr ⟨rfl, ?_⟩
    have inserted := Threads.insert_create (t := h.threads) (r := { thread, name, stackTop }) known
    cases created : h.threads.create { thread, name, stackTop } with
    | mk id threads =>
      rw [created] at inserted
      obtain rfl : h.threads.records.size = id := congrArg Prod.fst created
      rw [register]
      simp only [known, created, inserted]

theorem unregister_cases (rostered : h.threads.Rostered) (id : RecordId) :
    h.threads.isRegistered id = false ∧ h.unregister id =
      (.error (.notRegistered (((h.threads.record? id).map (·.name)).getD "")), h) ∨
    ∃ r, h.threads.record? id = some r ∧ (r.thread, id) ∈ h.threads.registered ∧ h.unregister id =
      (.ok (), { h with
        threads := h.threads.parted r.thread id
        roots := (h.roots.erase (.exception id)).erase (.handler id) }) := by
  cases found : h.threads.record? id with
  | none =>
    refine .inl ⟨?_, ?_⟩
    · rw [Bool.eq_false_iff, ne_eq, Threads.isRegistered_iff]
      rintro ⟨thread, listed⟩
      obtain ⟨r, found', -⟩ := rostered.recorded _ listed
      simp [found] at found'
    · rw [unregister, found]
      rfl
  | some r =>
    cases attached : r.attached with
    | false =>
      refine .inl ⟨?_, ?_⟩
      · rw [Bool.eq_false_iff, ne_eq, ← rostered.attached_iff found, attached]
        exact Bool.false_ne_true
      · rw [unregister, found]
        simp [attached]
    | true =>
      have listed := (rostered.attached id r found).1 attached
      have known := Threads.current?_of_mem rostered.toEnrolled listed
      have removed : (h.threads.modify id fun r => { r with attached := false }).remove r.thread =
          .ok (id, h.threads.parted r.thread id) := by
        have same : (h.threads.modify id fun r => { r with attached := false }).current? r.thread =
            some id := known
        rw [Threads.remove, same]
        rfl
      refine .inr ⟨r, rfl, listed, ?_⟩
      rw [unregister, found]
      simp [attached, removed]

/-- Whether the registry holds every slot as often as its owner has it there, and the owners are
told apart. -/
structure Accounted (calls : List RootCall) (h : Heap) : Prop where
  rostered : h.threads.Rostered
  fresh : ∀ id, h.handles.contains id = true → id < h.nextHandle
  counted : ∀ slot, h.roots.slots.count slot = h.claims calls slot
  backed : ∀ addr, calls.count (.removed addr) ≤ calls.count (.added addr)

theorem accounted_new {config : Config} (made : Heap.new config = .ok h) : h.Accounted [] := by
  obtain ⟨-, rfl⟩ := new_cases made
  refine ⟨⟨⟨List.nodup_nil, by simp⟩, ?_⟩, ?_, ?_, fun addr => Nat.le_refl _⟩
  · intro id r found
    simp [Threads.record?] at found
  · intro id held
    simp at held
  · intro slot
    cases slot <;> simp [claims, Threads.isRegistered]

theorem SameOwners.accounted (same : h.SameOwners g) (accounted : h.Accounted calls) :
    g.Accounted calls where
  rostered := same.threads.rostered accounted.rostered
  fresh := by
    rw [same.handles, same.nextHandle]
    exact accounted.fresh
  counted slot := by
    have members : g.threads.isRegistered = h.threads.isRegistered := by
      funext id
      rw [Threads.isRegistered, same.threads.registered, Threads.isRegistered]
    rw [same.roots, accounted.counted]
    cases slot <;> simp only [claims, same.handles, members]
  backed := accounted.backed

theorem contains_insert (handles : Std.ExtTreeMap HandleId UInt64) (id j : HandleId)
    (value : UInt64) : (handles.insert id value).contains j = (id == j || handles.contains j) := by
  rw [Std.ExtTreeMap.contains_insert, Std.compare_beq_eq_beq]

theorem contains_erase (handles : Std.ExtTreeMap HandleId UInt64) (id j : HandleId) :
    (handles.erase id).contains j = (id != j && handles.contains j) := by
  rw [Std.ExtTreeMap.contains_erase, bne, Std.compare_beq_eq_beq, bne]

theorem removeRoot_of_not_mem {addr : Addr} (unknown : .cell addr ∉ h.roots.slots) :
    h.removeRoot addr = h := by
  obtain rfl | null := eq_or_ne addr 0
  · rfl
  · simp [removeRoot, RootSlot.atAddr?, null, Roots.erase_of_not_mem unknown]

section Owners

variable (accounted : h.Accounted calls)
include accounted

theorem accounted_addRoot (addr : Addr) :
    (h.addRoot addr).Accounted ((h.rootCall? (.addRoot addr)).toList ++ calls) := by
  obtain rfl | null := eq_or_ne addr 0
  · exact accounted
  · have added : h.addRoot addr = { h with roots := h.roots.add (.cell addr) } := by
      simp [addRoot, RootSlot.atAddr?, null]
    have noted : (h.rootCall? (.addRoot addr)).toList ++ calls = .added addr :: calls := by
      simp [rootCall?, RootSlot.atAddr?, null]
    rw [added, noted]
    refine ⟨accounted.rostered, accounted.fresh, fun slot => ?_, fun a => ?_⟩
    · rw [Roots.count_add, accounted.counted]
      cases slot with
      | cell a =>
        have backed := accounted.backed a
        simp only [claims, List.count_cons, beq_iff_eq, RootCall.added.injEq, RootSlot.cell.injEq,
          reduceCtorEq, if_false]
        omega
      | handle id => simp [claims]
      | exception id => simp [claims]
      | handler id => simp [claims]
    · have backed := accounted.backed a
      simp only [List.count_cons, beq_iff_eq, reduceCtorEq, if_false]
      omega

theorem accounted_removeRoot (addr : Addr) :
    (h.removeRoot addr).Accounted ((h.rootCall? (.removeRoot addr)).toList ++ calls) := by
  obtain rfl | null := eq_or_ne addr 0
  · exact accounted
  · by_cases known : .cell addr ∈ h.roots.slots
    · have erased : h.removeRoot addr = { h with roots := h.roots.erase (.cell addr) } := by
        simp [removeRoot, RootSlot.atAddr?, null]
      have noted : (h.rootCall? (.removeRoot addr)).toList ++ calls = .removed addr :: calls := by
        simp [rootCall?, RootSlot.atAddr?, null, Roots.remove_fst.2 known]
      rw [erased, noted]
      have present : 0 < h.claims calls (.cell addr) := by
        rw [← accounted.counted]
        exact Array.count_pos_iff.2 known
      refine ⟨accounted.rostered, accounted.fresh, fun slot => ?_, fun a => ?_⟩
      · rw [Roots.count_erase, accounted.counted]
        cases slot with
        | cell a =>
          simp only [claims, List.count_cons, beq_iff_eq, RootCall.removed.injEq,
            RootSlot.cell.injEq, reduceCtorEq, if_false]
          omega
        | handle id => simp [claims]
        | exception id => simp [claims]
        | handler id => simp [claims]
      · have backed := accounted.backed a
        simp only [List.count_cons, beq_iff_eq, reduceCtorEq, if_false, RootCall.removed.injEq]
        split
        · next same =>
          subst same
          simp only [claims] at present
          omega
        · omega
    · have noted : (h.rootCall? (.removeRoot addr)).toList ++ calls = calls := by
        simp [rootCall?, RootSlot.atAddr?, null, Roots.remove_of_not_mem known]
      rw [removeRoot_of_not_mem known, noted]
      exact accounted

theorem accounted_root (value : UInt64) : (h.root value).2.Accounted calls where
  rostered := accounted.rostered
  fresh id held := by
    change (h.handles.insert h.nextHandle value).contains id = true at held
    rw [contains_insert, Bool.or_eq_true, beq_iff_eq] at held
    obtain same | old := held
    · exact same ▸ Nat.lt_succ_self _
    · exact Nat.lt_succ_of_lt (accounted.fresh id old)
  counted slot := by
    have new : h.handles.contains h.nextHandle = false := by
      by_contra held
      exact Nat.lt_irrefl _ (accounted.fresh _ (by simpa using held))
    change (h.roots.add _).slots.count slot = _
    rw [Roots.count_add, accounted.counted]
    cases slot with
    | handle id =>
      simp only [claims, root, contains_insert, RootSlot.handle.injEq]
      by_cases same : h.nextHandle = id
      · simp [← same, new]
      · rw [if_neg same, beq_eq_false_iff_ne.2 same, Bool.false_or, Nat.add_zero]
    | cell addr => simp [claims]
    | exception id => simp [claims, root]
    | handler id => simp [claims, root]
  backed := accounted.backed

theorem accounted_setHandle (id : HandleId) (value : UInt64) :
    (h.setHandle id value).Accounted calls := by
  unfold setHandle
  split
  · next held =>
    have same : ∀ j, (h.handles.insert id value).contains j = h.handles.contains j := by
      intro j
      rw [contains_insert]
      by_cases here : id = j
      · simp [← here, held]
      · simp [here]
    refine ⟨accounted.rostered, fun j held => accounted.fresh j (same j ▸ held), ?_,
      accounted.backed⟩
    intro slot
    rw [accounted.counted]
    cases slot <;> simp only [claims, same]
  · exact accounted

theorem accounted_dropHandle (id : HandleId) : (h.dropHandle id).2.Accounted calls := by
  unfold dropHandle
  split
  · next held =>
    refine ⟨accounted.rostered, fun j held => ?_, ?_, accounted.backed⟩
    · rw [contains_erase, Bool.and_eq_true] at held
      exact accounted.fresh j held.2
    · intro slot
      change (h.roots.erase _).slots.count slot = _
      rw [Roots.count_erase, accounted.counted]
      cases slot with
      | handle j =>
        simp only [claims, contains_erase, RootSlot.handle.injEq]
        by_cases here : id = j
        · simp [← here, held]
        · rw [if_neg here, bne_iff_ne.2 here, Bool.true_and, Nat.sub_zero]
      | cell addr => simp [claims]
      | exception j => simp [claims]
      | handler j => simp [claims]
  · exact accounted

theorem accounted_register (thread : ThreadId) (name : String) (stackTop : Addr) :
    (h.register thread name stackTop).2.Accounted calls := by
  obtain ⟨id, -, refused⟩ | ⟨unknown, done⟩ := register_cases h thread name stackTop
  · rw [refused]
    exact accounted
  · have new := Threads.isRegistered_size accounted.rostered.toEnrolled
    rw [done]
    refine ⟨Threads.rostered_joined accounted.rostered unknown rfl, accounted.fresh, ?_,
      accounted.backed⟩
    intro slot
    rw [Roots.count_add, Roots.count_add, accounted.counted]
    cases slot with
    | cell addr => simp [claims]
    | handle id => simp [claims]
    | exception id =>
      simp only [claims, Threads.isRegistered_joined, RootSlot.exception.injEq, reduceCtorEq,
        if_false]
      split
      · next same => simp [← same, new]
      · next other => rw [beq_eq_false_iff_ne.2 other, Bool.or_false, Nat.add_zero]
    | handler id =>
      simp only [claims, Threads.isRegistered_joined, RootSlot.handler.injEq, reduceCtorEq,
        if_false]
      split
      · next same => simp [← same, new]
      · next other => rw [beq_eq_false_iff_ne.2 other, Bool.or_false, Nat.add_zero]

theorem accounted_unregister (id : RecordId) : (h.unregister id).2.Accounted calls := by
  obtain ⟨-, refused⟩ | ⟨r, found, listed, done⟩ := unregister_cases accounted.rostered id
  · rw [refused]
    exact accounted
  · have enrolled := accounted.rostered.toEnrolled
    have known := Threads.isRegistered_iff.2 ⟨r.thread, listed⟩
    rw [done]
    refine ⟨Threads.rostered_parted accounted.rostered found listed, accounted.fresh, ?_,
      accounted.backed⟩
    intro slot
    rw [Roots.count_erase, Roots.count_erase, accounted.counted]
    cases slot with
    | cell addr => simp [claims]
    | handle j => simp [claims]
    | exception j =>
      simp only [claims, Threads.isRegistered_parted enrolled listed, RootSlot.exception.injEq,
        reduceCtorEq, if_false]
      split
      · next same => simp [← same, known]
      · next other => rw [bne_iff_ne.2 other, Bool.and_true, Nat.sub_zero, Nat.sub_zero]
    | handler j =>
      simp only [claims, Threads.isRegistered_parted enrolled listed, RootSlot.handler.injEq,
        reduceCtorEq, if_false]
      split
      · next same => simp [← same, known]
      · next other => rw [bne_iff_ne.2 other, Bool.and_true, Nat.sub_zero, Nat.sub_zero]

theorem accounted_perform (operation : Operation) :
    (h.perform operation).2.Accounted ((h.rootCall? operation).toList ++ calls) := by
  cases about : operation.isAboutRoots with
  | false =>
    have silent : h.rootCall? operation = none := by
      cases operation <;> first | rfl | simp [Operation.isAboutRoots] at about
    rw [silent]
    exact (sameOwners_perform h operation about).accounted accounted
  | true =>
    cases operation with
    | addRoot addr => exact accounted_addRoot accounted addr
    | removeRoot addr => exact accounted_removeRoot accounted addr
    | root value => exact accounted_root accounted value
    | setHandle id value => exact accounted_setHandle accounted id value
    | dropHandle id => exact accounted_dropHandle accounted id
    | register thread name stackTop => exact accounted_register accounted thread name stackTop
    | unregister id => exact accounted_unregister accounted id
    | _ => simp [Operation.isAboutRoots] at about

end Owners

theorem Rooted.accounted {config : Config} (rooted : Rooted config h calls) :
    h.Accounted calls := by
  induction rooted with
  | new made => exact accounted_new made
  | perform operation before admitted ih => exact accounted_perform ih operation

theorem Reachable.exists_rooted {config : Config} (run : Reachable config h) :
    ∃ calls, Rooted config h calls := by
  induction run with
  | new made => exact ⟨[], .new made⟩
  | perform operation before admitted ih =>
    obtain ⟨calls, rooted⟩ := ih
    exact ⟨_, rooted.perform operation admitted⟩

section Visits

variable {env : Embedding} {around : Surroundings}

end Visits

def rootCalls : List Operation → Heap → List RootCall
  | [], _ => []
  | operation :: rest, h =>
    rootCalls rest (h.perform operation).2 ++ (h.rootCall? operation).toList

theorem Rooted.performAll {config : Config} (operations : List Operation)
    (rooted : Rooted config h calls) (admitted : h.AdmitsAll operations) :
    Rooted config (h.performAll operations) (h.rootCalls operations ++ calls) := by
  induction operations generalizing h calls with
  | nil => exact rooted
  | cons operation rest ih =>
    rw [rootCalls, List.append_assoc]
    exact ih (.perform operation rooted admitted.1) admitted.2

end Heap

end MarkSweep
