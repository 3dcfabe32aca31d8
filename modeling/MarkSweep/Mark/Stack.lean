import MarkSweep.Error

set_option autoImplicit false

namespace MarkSweep

/-- A stack of addresses, the newest in front. -/
structure MarkStack where
  entries : List Addr := []
deriving DecidableEq, Repr, Inhabited

namespace MarkStack

def toList (s : MarkStack) : List Addr := s.entries.reverse

def ofList (addrs : List Addr) : MarkStack := ⟨addrs.reverse⟩

def size (s : MarkStack) : Nat := s.entries.length

def isEmpty (s : MarkStack) : Bool := s.entries.isEmpty

def push (s : MarkStack) (addr : Addr) : MarkStack := ⟨addr :: s.entries⟩

def extend (s : MarkStack) (addrs : List Addr) : MarkStack := ⟨addrs.reverse ++ s.entries⟩

def pop (s : MarkStack) : Option (Addr × MarkStack) :=
  match s.entries with
  | [] => none
  | addr :: rest => some (addr, ⟨rest⟩)

/-- Takes the oldest entries, at most `count` of them, and returns them oldest first. -/
def takeOldest (s : MarkStack) (count : Nat) : List Addr × MarkStack :=
  let keep := s.entries.length - count
  ((s.entries.drop keep).reverse, ⟨s.entries.take keep⟩)

@[simp] theorem toList_push (s : MarkStack) (addr : Addr) :
    (s.push addr).toList = s.toList ++ [addr] := by
  simp [push, toList]

@[simp] theorem toList_extend (s : MarkStack) (addrs : List Addr) :
    (s.extend addrs).toList = s.toList ++ addrs := by
  simp [extend, toList]

@[simp] theorem toList_ofList (addrs : List Addr) : (ofList addrs).toList = addrs := by
  simp [ofList, toList]

theorem length_toList (s : MarkStack) : s.toList.length = s.size := by simp [toList, size]

theorem pop_eq_none_iff {s : MarkStack} : s.pop = none ↔ s.entries = [] := by
  unfold pop
  split <;> simp_all

theorem pop_eq_some_iff {s t : MarkStack} {addr : Addr} :
    s.pop = some (addr, t) ↔ s.entries = addr :: t.entries := by
  obtain ⟨rest⟩ := t
  unfold pop
  split <;> simp_all

theorem fst_takeOldest (s : MarkStack) (count : Nat) :
    (s.takeOldest count).1 = s.toList.take count := by
  rw [takeOldest, toList, List.take_reverse]

theorem snd_takeOldest (s : MarkStack) (count : Nat) :
    (s.takeOldest count).2.toList = s.toList.drop count := by
  rw [takeOldest, toList, toList, List.drop_reverse]

theorem toList_takeOldest (s : MarkStack) (count : Nat) :
    (s.takeOldest count).1 ++ (s.takeOldest count).2.toList = s.toList := by
  rw [fst_takeOldest, snd_takeOldest, List.take_append_drop]

end MarkStack

end MarkSweep
