import Mathlib.Tactic.Common
import MarkSweep.Mark.Dispatch

set_option autoImplicit false

/-!
# Shares

What is dispatched are the oldest portions of the stack, all of one size, one for each worker that
rests. A portion that is not accepted comes back on top of the stack. So dispatching keeps the
entries that wait, each as often as before, and so do offering and taking a surplus.
-/

namespace MarkSweep

section Portions

variable {count : Nat} {workers : List Nat} {addrs : List Addr}

theorem map_fst_portions (count : Nat) (workers : List Nat) (addrs : List Addr) :
    (portions count workers addrs).map (·.1) = workers := by
  induction workers generalizing addrs with
  | nil => rfl
  | cons i rest ih => simp [portions, ih]

theorem map_fst_filter_portions (accepts : Nat → Bool) :
    ((portions count workers addrs).filter fun b => accepts b.1).map (·.1) =
      workers.filter accepts := by
  have filtered := List.filter_map (f := fun b : Nat × List Addr => b.1) (p := accepts)
    (l := portions count workers addrs)
  rw [map_fst_portions] at filtered
  exact filtered.symm

theorem flatMap_portions (count : Nat) (workers : List Nat) (addrs : List Addr) :
    (portions count workers addrs).flatMap (·.2) ++ addrs.drop (workers.length * count) =
      addrs := by
  induction workers generalizing addrs with
  | nil => simp [portions]
  | cons i rest ih =>
    have later := ih (addrs.drop count)
    rw [List.drop_drop] at later
    rw [portions, List.flatMap_cons, List.append_assoc, List.length_cons, Nat.succ_mul,
      Nat.add_comm _ count, later, List.take_append_drop]

theorem length_of_mem_portions (enough : workers.length * count ≤ addrs.length) {i : Nat}
    {batch : List Addr} (mem : (i, batch) ∈ portions count workers addrs) :
    batch.length = count := by
  induction workers generalizing addrs with
  | nil => simp [portions] at mem
  | cons j rest ih =>
    rw [List.length_cons, Nat.succ_mul] at enough
    obtain first | later := List.mem_cons.1 mem
    · obtain ⟨-, rfl⟩ := Prod.mk.inj first
      rw [List.length_take]
      omega
    · exact ih (by rw [List.length_drop]; omega) later

theorem portions_append (enough : workers.length * count ≤ addrs.length) (more : List Addr) :
    portions count workers (addrs ++ more) = portions count workers addrs := by
  induction workers generalizing addrs with
  | nil => rfl
  | cons i rest ih =>
    rw [List.length_cons, Nat.succ_mul] at enough
    have first : count ≤ addrs.length := by omega
    rw [portions, portions, List.take_append_of_le_length first,
      List.drop_append_of_le_length first, ih (by rw [List.length_drop]; omega)]

end Portions

namespace MarkStack

section HandOut

variable {accepts : Nat → Bool} {count : Nat} {workers : List Nat}

/-- The portions that are accepted are sent, the others come back on top of what is left. Since all
portions together are no more than the stack, none that came back is sent again. -/
theorem handOut_eq (accepts : Nat → Bool) (active : UInt64) {s : MarkStack}
    (enough : workers.length * count ≤ s.size) :
    let h := s.handOut accepts count workers active
    h.batches = (portions count workers s.toList).filter (fun b => accepts b.1) ∧
      h.pending.toList = s.toList.drop (workers.length * count) ++
        ((portions count workers s.toList).filter fun b => !accepts b.1).flatMap (·.2) := by
  induction workers generalizing active s with
  | nil => simp [handOut, portions]
  | cons i rest ih =>
    rw [List.length_cons, Nat.succ_mul, ← length_toList] at enough
    have later : rest.length * count ≤ (s.toList.drop count).length := by
      rw [List.length_drop]
      omega
    have first := fst_takeOldest s count
    have left := snd_takeOldest s count
    have whole : (rest.length + 1) * count = count + rest.length * count := by
      rw [Nat.succ_mul, Nat.add_comm]
    simp only [handOut, portions, List.length_cons, whole]
    generalize s.takeOldest count = cut at first left ⊢
    obtain ⟨batch, t⟩ := cut
    obtain rfl : batch = s.toList.take count := first
    change t.toList = s.toList.drop count at left
    by_cases taken : accepts i = true
    · obtain ⟨batches, pending⟩ :=
        ih (Word.withBit active i) (s := t) (by rw [← length_toList, left]; exact later)
      simp only [taken, if_true, batches, pending, left, List.drop_drop]
      simp [taken]
    · have room : rest.length * count ≤ (t.extend (s.toList.take count)).size := by
        rw [← length_toList, toList_extend, left, List.length_append]
        omega
      obtain ⟨batches, pending⟩ := ih active room
      rw [toList_extend, left, portions_append later] at batches pending
      rw [List.drop_append_of_le_length later, List.drop_drop, List.append_assoc] at pending
      simpa [taken] using And.intro batches pending

theorem active_handOut (accepts : Nat → Bool) (count : Nat) (workers : List Nat) (active : UInt64)
    (s : MarkStack) : (s.handOut accepts count workers active).active =
      (workers.filter accepts).foldl Word.withBit active := by
  induction workers generalizing active s with
  | nil => rfl
  | cons i rest ih =>
    simp only [handOut]
    by_cases taken : accepts i = true
    · rw [if_pos taken, List.filter_cons_of_pos taken, List.foldl_cons]
      exact ih _ _
    · rw [if_neg taken, List.filter_cons_of_neg taken]
      exact ih _ _

/-- A share that comes back finds the room that it left, and its worker's bit as it was. -/
theorem handOutInPlace?_eq {capacity : Nat} {active : UInt64} {s : MarkStack}
    (nodup : workers.Nodup) (few : ∀ i ∈ workers, i < 64)
    (clear : ∀ i ∈ workers, Word.bit active i = false) (fits : s.size ≤ capacity) :
    s.handOutInPlace? capacity accepts count workers active =
      some (s.handOut accepts count workers active) := by
  induction workers generalizing active s with
  | nil => rfl
  | cons i rest ih =>
    obtain ⟨new, nodup⟩ := List.nodup_cons.1 nodup
    have few' : ∀ j ∈ rest, j < 64 := fun j mem => few j (List.mem_cons_of_mem i mem)
    have clear' : ∀ j ∈ rest, Word.bit active j = false :=
      fun j mem => clear j (List.mem_cons_of_mem i mem)
    have bound := few i List.mem_cons_self
    have parts := congrArg List.length (toList_takeOldest s count)
    rw [List.length_append, length_toList, length_toList] at parts
    simp only [handOutInPlace?, handOut]
    by_cases taken : accepts i = true
    · have raised : ∀ j ∈ rest, Word.bit (Word.withBit active i) j = false := by
        intro j mem
        have other : i ≠ j := fun same => new (same ▸ mem)
        simp [Word.bit_withBit _ bound, clear' j mem, other]
      rw [if_pos taken, if_pos taken, ih nodup few' raised (by omega), Option.map_some]
    · rw [if_neg taken, if_neg taken, if_neg (by omega),
        Word.withoutBit_withBit bound (clear i List.mem_cons_self)]
      apply ih nodup few' clear'
      rw [← length_toList, toList_extend, List.length_append, length_toList]
      omega

end HandOut

def shareSize (workers : Nat) (active : UInt64) (s : MarkStack) : Nat :=
  s.size / ((restingWorkers workers active).length + 1)

/-- Whether a stack is large enough to be shared, for the leader and for those that rest. -/
def IsShared (minDispatch workers : Nat) (active : UInt64) (s : MarkStack) : Prop :=
  minDispatch ≤ s.size ∧ 0 < s.shareSize workers active

/-- What dispatching a stack comes to. A pool has no more than 64 workers, one for each bit. -/
structure SharesOut (minDispatch workers : Nat) (accepts : Nat → Bool) (active : UInt64)
    (s : MarkStack) (h : Handout) : Prop where
  withheld : ¬ s.IsShared minDispatch workers active → h = { active, pending := s }
  served : ∀ i, (∃ batch, (i, batch) ∈ h.batches) ↔ s.IsShared minDispatch workers active ∧
    i < workers ∧ Word.bit active i = false ∧ accepts i = true
  once : (h.batches.map (·.1)).Pairwise (· < ·)
  even : ∀ i batch, (i, batch) ∈ h.batches → batch.length = s.shareSize workers active
  ordered : (∀ i < workers, Word.bit active i = false → accepts i = true) →
    h.batches.flatMap (·.2) ++ h.pending.toList = s.toList
  returned : s.IsShared minDispatch workers active →
    let resting := restingWorkers workers active
    let parts := portions (s.shareSize workers active) resting s.toList
    h.batches = parts.filter (fun b => accepts b.1) ∧
      h.pending.toList = s.toList.drop (resting.length * s.shareSize workers active) ++
        (parts.filter fun b => !accepts b.1).flatMap (·.2)
  conserved : (h.batches.flatMap (·.2) ++ h.pending.toList).Perm s.toList
  keeps : s.shareSize workers active ≤ h.pending.size
  raised : workers ≤ 64 → ∀ i,
    Word.bit h.active i = (Word.bit active i || decide (i ∈ h.batches.map (·.1)))
  inPlace : workers ≤ 64 → ∀ capacity, s.size ≤ capacity →
    s.dispatchInPlace? capacity minDispatch workers accepts active = some h

section Dispatch

variable {minDispatch workers : Nat} {accepts : Nat → Bool} {active : UInt64} {s : MarkStack}

theorem dispatch_of_not_isShared (whole : ¬ s.IsShared minDispatch workers active) :
    s.dispatch minDispatch workers accepts active = { active, pending := s } := by
  have nothing : s.share minDispatch (restingWorkers workers active).length = 0 := by
    unfold share
    split
    · rfl
    · next large =>
      refine Nat.eq_zero_of_not_pos fun positive => whole ⟨?_, positive⟩
      omega
  simp only [dispatch, nothing]

theorem dispatch_of_isShared (shared : s.IsShared minDispatch workers active) :
    s.dispatch minDispatch workers accepts active =
      s.handOut accepts (s.shareSize workers active) (restingWorkers workers active) active := by
  obtain ⟨enough, positive⟩ := shared
  simp only [dispatch]
  cases rests : restingWorkers workers active with
  | nil => simp [share, handOut]
  | cons i rest =>
    have count : s.share minDispatch (i :: rest).length = s.shareSize workers active := by
      rw [share, if_neg (by simp only [List.length_cons]; omega), shareSize, rests]
    rw [count]
    split
    · next none => omega
    · rfl

theorem dispatchInPlace?_eq {capacity : Nat} (few : workers ≤ 64) (fits : s.size ≤ capacity) :
    s.dispatchInPlace? capacity minDispatch workers accepts active =
      some (s.dispatch minDispatch workers accepts active) := by
  have bounds : ∀ i ∈ restingWorkers workers active, i < 64 := fun i mem =>
    Nat.lt_of_lt_of_le (mem_restingWorkers_iff.1 mem).1 few
  have clear : ∀ i ∈ restingWorkers workers active, Word.bit active i = false :=
    fun i mem => (mem_restingWorkers_iff.1 mem).2
  unfold dispatchInPlace?
  by_cases shared : s.IsShared minDispatch workers active
  · rw [dispatch_of_isShared shared]
    obtain ⟨large, positive⟩ := shared
    change (if _ || decide (s.shareSize workers active = 0) then _ else
      s.handOutInPlace? capacity accepts (s.shareSize workers active) _ active) = _
    rw [handOutInPlace?_eq (nodup_restingWorkers workers active) bounds clear fits]
    cases rests : restingWorkers workers active with
    | nil => simp [handOut]
    | cons i rest => rw [if_neg (by simp; omega)]
  · rw [dispatch_of_not_isShared shared]
    refine if_pos ?_
    by_cases large : minDispatch ≤ s.size
    · have zero : s.size / ((restingWorkers workers active).length + 1) = 0 :=
        Nat.eq_zero_of_not_pos fun positive => shared ⟨large, positive⟩
      simp [zero]
    · simp [Nat.lt_of_not_le large]

theorem length_mul_shareSize_le (workers : Nat) (active : UInt64) (s : MarkStack) :
    (restingWorkers workers active).length * s.shareSize workers active +
      s.shareSize workers active ≤ s.size := by
  rw [← Nat.succ_mul, Nat.mul_comm]
  exact Nat.div_mul_le_self _ _

theorem length_mul_shareSize_le_length (workers : Nat) (active : UInt64) (s : MarkStack) :
    (restingWorkers workers active).length * s.shareSize workers active ≤ s.toList.length := by
  have sum := length_mul_shareSize_le workers active s
  rw [length_toList]
  omega

theorem dispatch_parts (accepts : Nat → Bool) (shared : s.IsShared minDispatch workers active) :
    let resting := restingWorkers workers active
    let parts := portions (s.shareSize workers active) resting s.toList
    let h := s.dispatch minDispatch workers accepts active
    h.batches = parts.filter (fun b => accepts b.1) ∧
      h.pending.toList = s.toList.drop (resting.length * s.shareSize workers active) ++
        (parts.filter fun b => !accepts b.1).flatMap (·.2) := by
  have enough := length_mul_shareSize_le_length workers active s
  rw [length_toList] at enough
  rw [dispatch_of_isShared shared]
  exact handOut_eq accepts active enough

theorem map_fst_dispatch (accepts : Nat → Bool) (shared : s.IsShared minDispatch workers active) :
    (s.dispatch minDispatch workers accepts active).batches.map (·.1) =
      (restingWorkers workers active).filter accepts := by
  rw [(dispatch_parts accepts shared).1]
  exact map_fst_filter_portions accepts

theorem sharesOut_of_not_isShared (whole : ¬ s.IsShared minDispatch workers active) :
    s.SharesOut minDispatch workers accepts active
      (s.dispatch minDispatch workers accepts active) := by
  have nothing : s.dispatch minDispatch workers accepts active = { active, pending := s } :=
    dispatch_of_not_isShared whole
  constructor
  case withheld => exact fun _ => nothing
  case inPlace => exact fun few capacity fits => dispatchInPlace?_eq few fits
  case returned => exact fun shared => absurd shared whole
  all_goals rw [nothing]
  case served => simp [whole]
  case once => exact .nil
  case even => simp
  case ordered => simp
  case conserved => exact .refl _
  case keeps => exact Nat.div_le_self _ _
  case raised => simp

theorem sharesOut_of_isShared (shared : s.IsShared minDispatch workers active) :
    s.SharesOut minDispatch workers accepts active
      (s.dispatch minDispatch workers accepts active) := by
  have returned := dispatch_parts accepts shared
  have sent := map_fst_dispatch accepts shared
  constructor
  case withheld => exact fun whole => absurd shared whole
  case returned => exact fun _ => returned
  case inPlace => exact fun few capacity fits => dispatchInPlace?_eq few fits
  case served =>
    intro i
    have named : (∃ batch, (i, batch) ∈ (s.dispatch minDispatch workers accepts active).batches) ↔
        i ∈ (s.dispatch minDispatch workers accepts active).batches.map (·.1) := by
      simp [List.mem_map]
    rw [named, sent, List.mem_filter, mem_restingWorkers_iff, and_assoc, and_iff_right shared]
  case once =>
    rw [sent]
    exact (pairwise_restingWorkers workers active).filter _
  case even =>
    intro i batch mem
    rw [returned.1] at mem
    exact length_of_mem_portions (length_mul_shareSize_le_length workers active s)
      (List.mem_filter.1 mem).1
  case ordered =>
    intro all
    have names := map_fst_portions (s.shareSize workers active) (restingWorkers workers active)
      s.toList
    have whole := flatMap_portions (s.shareSize workers active) (restingWorkers workers active)
      s.toList
    have taken : ∀ b ∈ portions (s.shareSize workers active) (restingWorkers workers active)
        s.toList, accepts b.1 = true := by
      intro b mem
      have rests : b.1 ∈ restingWorkers workers active := names ▸ List.mem_map_of_mem mem
      obtain ⟨bound, clear⟩ := mem_restingWorkers_iff.1 rests
      exact all b.1 bound clear
    rw [returned.1, returned.2, List.filter_eq_self.2 taken, List.filter_eq_nil_iff.2,
      List.flatMap_nil, List.append_nil, whole]
    intro b mem
    simp [taken b mem]
  case conserved =>
    rw [dispatch_of_isShared shared]
    exact handOut_perm accepts _ _ active s
  case keeps =>
    have sum := length_mul_shareSize_le workers active s
    rw [← length_toList, returned.2, List.length_append, List.length_drop, length_toList]
    omega
  case raised =>
    intro few i
    rw [sent, dispatch_of_isShared shared, active_handOut, Word.bit_foldl_withBit]
    intro j mem
    exact Nat.lt_of_lt_of_le (mem_restingWorkers_iff.1 (List.mem_filter.1 mem).1).1 few

theorem sharesOut_dispatch (minDispatch workers : Nat) (accepts : Nat → Bool) (active : UInt64)
    (s : MarkStack) :
    s.SharesOut minDispatch workers accepts active
      (s.dispatch minDispatch workers accepts active) := by
  by_cases shared : s.IsShared minDispatch workers active
  · exact sharesOut_of_isShared shared
  · exact sharesOut_of_not_isShared shared

theorem SharesOut.lt_of_mem {h : Handout}
    (shares : s.SharesOut minDispatch workers accepts active h) {b : Nat × List Addr}
    (mem : b ∈ h.batches) : b.1 < workers :=
  ((shares.served b.1).1 ⟨b.2, mem⟩).2.1

end Dispatch

structure Offers (minDispatch : Nat) (someoneRests : Bool) (surplus : List Addr) (s : MarkStack)
    (r : List Addr × MarkStack) : Prop where
  conserved : (r.1 ++ r.2.toList).Perm (surplus ++ s.toList)
  guarded : surplus ≠ [] → r = (surplus, s)
  withheld : someoneRests = false ∨ s.size < 2 * minDispatch → r = (surplus, s)
  halved : surplus = [] → someoneRests = true → 2 * minDispatch ≤ s.size →
    r.1 = s.toList.take (s.size / 2) ∧ r.2.toList = s.toList.drop (s.size / 2)

theorem offers_offerSurplus (minDispatch : Nat) (someoneRests : Bool) (surplus : List Addr)
    (s : MarkStack) :
    s.Offers minDispatch someoneRests surplus
      (s.offerSurplus minDispatch someoneRests surplus) := by
  constructor
  case conserved => exact offerSurplus_perm minDispatch someoneRests surplus s
  case guarded =>
    intro some_aside
    refine if_neg ?_
    simp [some_aside]
  case withheld =>
    intro reason
    refine if_neg ?_
    obtain nobody | small := reason
    · simp [nobody]
    · simp [Nat.not_le_of_lt small]
  case halved =>
    rintro rfl rests large
    have offered : s.offerSurplus minDispatch someoneRests [] = s.takeOldest (s.size / 2) :=
      if_pos (by simp [rests, large])
    rw [offered]
    exact ⟨fst_takeOldest s _, snd_takeOldest s _⟩

structure TakesBack (surplus : List Addr) (s : MarkStack) (r : List Addr × MarkStack) : Prop where
  conserved : (r.1 ++ r.2.toList).Perm (surplus ++ s.toList)
  emptied : r.1 = []
  stacked : r.2.toList = s.toList ++ surplus

theorem takesBack_takeSurplus (surplus : List Addr) (s : MarkStack) :
    s.TakesBack surplus (s.takeSurplus surplus) :=
  ⟨takeSurplus_perm surplus s, rfl, toList_extend s surplus⟩

end MarkStack

end MarkSweep
