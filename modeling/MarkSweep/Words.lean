import MarkSweep.Word
import Std.Data.ExtTreeMap

set_option autoImplicit false

namespace MarkSweep

/-- A row of words by index, zero where nothing was written. -/
structure Words where
  stored : Std.ExtTreeMap Nat UInt64 := ∅
  ne_zero : ∀ i : Nat, stored[i]? ≠ some 0 := by simp

namespace Words

def zero : Words := {}

instance : Inhabited Words := ⟨zero⟩

def get (m : Words) (i : Nat) : UInt64 := m.stored.getD i 0

def set (m : Words) (i : Nat) (w : UInt64) : Words where
  stored := if w = 0 then m.stored.erase i else m.stored.insert i w
  ne_zero j := by
    split
    · rw [Std.ExtTreeMap.getElem?_erase]
      split
      · simp
      · exact m.ne_zero j
    · next h =>
      rw [Std.ExtTreeMap.getElem?_insert]
      split
      · simpa using h
      · exact m.ne_zero j

def keep (m : Words) (p : Nat → Bool) : Words where
  stored := m.stored.filter fun i _ => p i
  ne_zero j := by
    intro h
    rw [Std.ExtTreeMap.getElem?_filter', Option.filter_eq_some_iff] at h
    exact m.ne_zero j h.1

@[simp] theorem get_zero (i : Nat) : zero.get i = 0 := by simp [zero, get]

theorem get_set (m : Words) (i j : Nat) (w : UInt64) :
    (m.set i w).get j = if i = j then w else m.get j := by
  unfold set get
  by_cases h : w = 0
  · subst h
    simp [Std.ExtTreeMap.getD_erase]
  · simp [h, Std.ExtTreeMap.getD_insert]

theorem get_keep (m : Words) (p : Nat → Bool) (i : Nat) :
    (m.keep p).get i = if p i then m.get i else 0 := by
  unfold keep get
  rw [Std.ExtTreeMap.getD_filter', Std.ExtTreeMap.getD_eq_getD_getElem?]
  cases m.stored[i]? with
  | none => simp
  | some w => by_cases hp : p i = true <;> simp [Option.filter_some, hp]

@[ext] theorem ext {m n : Words} (h : ∀ i, m.get i = n.get i) : m = n := by
  have key : ∀ (k : Words) (i : Nat),
      k.stored[i]? = if k.get i = 0 then none else some (k.get i) := by
    intro k i
    have := k.ne_zero i
    rw [get, Std.ExtTreeMap.getD_eq_getD_getElem?]
    cases hk : k.stored[i]? with
    | none => simp
    | some w => simp [hk] at this; simp [this]
  obtain ⟨s, hs⟩ := m
  obtain ⟨t, ht⟩ := n
  congr
  apply Std.ExtTreeMap.ext_getElem?
  intro i
  rw [key ⟨s, hs⟩ i, key ⟨t, ht⟩ i, h i]

end Words

end MarkSweep
