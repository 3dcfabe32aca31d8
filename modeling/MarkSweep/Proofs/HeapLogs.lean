import MarkSweep.Proofs.ArenaAccuracy
import MarkSweep.Proofs.HeapSteps

set_option autoImplicit false

/-!
# What steps preserve

The books of the arena are kept and every registered thread has its record, after each step of an
operation and so in every heap with a log. What holds of a new heap with an empty log, and goes on
to hold after every step of a heap in that order, holds of every heap with its log.
-/

namespace MarkSweep

namespace Arena

section Writing

variable {a : Arena} {i : Nat} {s t : Slab}

def setSlab (a : Arena) (i : Nat) (t : Slab) : Arena :=
  { a with slabs := a.slabs.setIfInBounds i t }

theorem balanced_setSlab (balanced : a.Balanced) (found : a.slabs[i]? = some s)
    (page : t.page = s.page) (used : t.used = s.used) (tidy : t.Tidy) :
    (a.setSlab i t).Balanced := by
  have sums : ∀ f : Slab → Nat, f t = f s →
      total f (a.setSlab i t).slabs.toList = total f a.slabs.toList := by
    intro f blind
    have changed := total_set f (l := a.slabs.toList) (i := i) (a := s) (by simpa using found) t
    rw [setSlab, Array.toList_setIfInBounds]
    lia
  constructor
  · intro u hu
    obtain hu | rfl := Array.mem_or_eq_of_mem_setIfInBounds hu
    · exact balanced.tidy u hu
    · exact tidy
  · exact balanced.privateBytes.trans (sums (·.page.size) (by rw [page])).symm
  · exact balanced.liveBlocks.trans (sums (·.used) used).symm
  · exact balanced.liveBytes.trans (sums _ (by rw [page, used])).symm
  · have pages : (a.setSlab i t).pages = a.pages := by
      ext p
      rw [mem_pages, mem_pages, page?_setIfInBounds found rfl page]
    rw [pages]
    exact balanced.tracks

theorem listed_setSlab (listed : a.Listed) (found : a.slabs[i]? = some s)
    (page : t.page = s.page) (used : t.used = s.used) : (a.setSlab i t).Listed where
  roomy c j := by
    have room : t.HasRoom c ↔ s.HasRoom c := by
      rw [Slab.HasRoom, Slab.HasRoom, Slab.isFull, Slab.isFull, page, used]
    have slabs := getElem?_slabs_of_set (b := a.setSlab i t) found rfl j
    refine (listed.roomy c j).trans ?_
    rw [slabs]
    by_cases here : i = j
    · subst here
      simp [found, room]
    · rw [if_neg here]
  once := listed.once

theorem stocked_setSlab (stocked : a.Stocked) (found : a.slabs[i]? = some s)
    (page : t.page = s.page) (used : t.used = s.used) : (a.setSlab i t).Stocked where
  toListed := listed_setSlab stocked.toListed found page used
  inUse u hu := by
    obtain hu | rfl := Array.mem_or_eq_of_mem_setIfInBounds hu
    · exact stocked.inUse u hu
    · exact used ▸ stocked.inUse s (Array.mem_of_getElem? found)

theorem filed_write (filed : a.Filed) {b : Block} (held : a.Holds b) {x : Addr}
    (inside : b.Contains x) (w : UInt64) : (a.write x w).Filed := by
  have sound := sound_write filed.sound held inside w
  obtain ⟨i, s, k, found, -, -, same⟩ := exists_write_eq filed.sound held inside w
  have tidy := filed.balanced.tidy s (Array.mem_of_getElem? found)
  rw [same] at sound ⊢
  exact {
    sound
    balanced := balanced_setSlab filed.balanced found rfl rfl ⟨tidy.below, tidy.inside⟩
    listed := listed_setSlab filed.listed found rfl rfl }

theorem tallied_write (tallied : a.Tallied) {b : Block} (held : a.Holds b) {x : Addr}
    (inside : b.Contains x) (w : UInt64) : (a.write x w).Tallied := by
  obtain ⟨sound, balanced, -⟩ := filed_write tallied.filed held inside w
  obtain ⟨i, s, k, found, -, -, same⟩ := exists_write_eq tallied.sound held inside w
  rw [same] at sound balanced ⊢
  exact ⟨sound, balanced, stocked_setSlab tallied.stocked found rfl rfl, tallied.threshold⟩

theorem holds_setSlab (found : a.slabs[i]? = some s) (page : t.page = s.page)
    (allocated : t.allocated = s.allocated) (b : Block) : (a.setSlab i t).Holds b ↔ a.Holds b := by
  have slabs := getElem?_slabs_of_set (b := a.setSlab i t) found rfl
  have same : ∀ k, t.isAllocated k = s.isAllocated k := isAllocated_congr page allocated
  rw [holds_iff, holds_iff]
  refine exists_congr fun j => ?_
  rw [slabs]
  by_cases here : i = j
  · subst here
    simp [found, same, Slab.block, page]
  · rw [if_neg here]

theorem holds_write (sound : a.Sound) {b : Block} (held : a.Holds b) {x : Addr}
    (inside : b.Contains x) (w : UInt64) (c : Block) : (a.write x w).Holds c ↔ a.Holds c := by
  obtain ⟨i, s, k, found, -, -, same⟩ := exists_write_eq sound held inside w
  rw [same]
  exact holds_setSlab (t := s.write x w) found rfl rfl c

end Writing

end Arena

namespace Heap

structure Orderly (h : Heap) : Prop where
  tallied : h.arena.Tallied
  enrolled : h.threads.Enrolled

section Steps

variable {h h' : Heap} {events : List Event}

theorem Quiet.orderly (quiet : h.Quiet h') (orderly : h.Orderly) : h'.Orderly :=
  ⟨quiet.arena ▸ orderly.tallied, quiet.threads orderly.enrolled⟩

theorem Step.orderly (step : h.Step events h') (orderly : h.Orderly) : h'.Orderly := by
  cases step with
  | quiet same => exact same.orderly orderly
  | write w held inside =>
    exact ⟨Arena.tallied_write orderly.tallied held inside w, orderly.enrolled⟩
  | achieve parking =>
    have after := parking.orderly ⟨orderly.tallied, orderly.enrolled⟩
    exact ⟨after.tallied, after.enrolled⟩
  | abandon parking =>
    have after := parking.orderly ⟨orderly.tallied, orderly.enrolled⟩
    exact ⟨after.tallied, after.enrolled⟩
  | mark same pending => exact ⟨Arena.tallied_congr same orderly.tallied, orderly.enrolled⟩
  | refuse aligned asked =>
    exact ⟨Arena.tallied_allocate orderly.tallied aligned asked, orderly.enrolled⟩
  | allocate aligned asked =>
    exact ⟨Arena.tallied_allocate orderly.tallied aligned asked, orderly.enrolled⟩
  | collect nanos => exact ⟨Arena.tallied_sweep orderly.tallied, orderly.enrolled⟩

theorem new_cases {config : Config} (made : Heap.new config = .ok h) :
    config.check = .ok () ∧ h = { config, flags := config.flags
                                  arena := Arena.new config.hugeThreshold config.heapLimit } := by
  unfold Heap.new at made
  cases checked : config.check with
  | error e => simp [checked, bind, Except.bind] at made
  | ok u =>
    rw [checked] at made
    exact ⟨rfl, (Except.ok.inj made).symm⟩

theorem orderly_new {config : Config} (made : Heap.new config = .ok h) : h.Orderly := by
  obtain ⟨checked, rfl⟩ := new_cases made
  exact ⟨Arena.tallied_new (validHugeThreshold_of_check checked), List.nodup_nil, by simp⟩

/-- What holds of new heaps and is preserved by the steps of heaps in order holds of every heap with
its log. -/
theorem Logged.induction {config : Config} {P : Heap → List Event → Prop}
    (new : ∀ h, Heap.new config = .ok h → P h [])
    (step : ∀ h log events h', h.Orderly → P h log → h.Step events h' → P h' (events ++ log))
    {log : List Event} (logged : Logged config h log) : h.Orderly ∧ P h log := by
  -- An induction on the operations, and for each of them on its row of steps.
  induction logged with
  | new made => exact ⟨orderly_new made, new _ made⟩
  | @perform h log events operation before admitted steps told ih =>
    clear told
    generalize (h.perform operation).2 = after at steps
    induction steps with
    | refl => exact ih
    | @tail g h' earlier events before' step' ih' =>
      rw [List.append_assoc]
      exact ⟨step'.orderly ih'.1, step _ _ _ _ ih'.1 ih'.2 step'⟩

theorem Reachable.orderly {config : Config} (run : Reachable config h) : h.Orderly := by
  obtain ⟨log, logged⟩ := run.exists_logged
  exact (logged.induction (P := fun _ _ => True) (fun _ _ => trivial)
    fun _ _ _ _ _ _ _ => trivial).1

end Steps

end Heap

end MarkSweep
