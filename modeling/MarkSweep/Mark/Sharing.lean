import MarkSweep.Mark.Stack
import MarkSweep.Word

set_option autoImplicit false

/-!
# Sharing mark work

Several threads may mark at once, each with a stack of its own. The thread that leads hands shares
of its stack to workers that rest. A worker that has much, while somebody rests, puts half of its
stack aside for whoever runs dry. A word says which workers hold work: the bit of a worker is set
from when it is sent a share until it has nothing left.

Sharing moves entries from one place to another. None is lost and none appears twice.
-/

namespace MarkSweep

def restingWorkers (workers : Nat) (active : UInt64) : List Nat :=
  (List.range workers).filter fun i => !Word.bit active i

theorem mem_restingWorkers_iff {workers : Nat} {active : UInt64} {i : Nat} :
    i ∈ restingWorkers workers active ↔ i < workers ∧ Word.bit active i = false := by
  simp [restingWorkers]

theorem pairwise_restingWorkers (workers : Nat) (active : UInt64) :
    (restingWorkers workers active).Pairwise (· < ·) :=
  List.pairwise_lt_range.filter _

theorem nodup_restingWorkers (workers : Nat) (active : UInt64) :
    (restingWorkers workers active).Nodup :=
  (pairwise_restingWorkers workers active).imp Nat.ne_of_lt

structure Handout where
  batches : List (Nat × List Addr) := []
  active : UInt64
  pending : MarkStack
deriving DecidableEq, Repr

namespace MarkStack

/-- How many entries each of some resting workers gets, so that the leader keeps as many. A stack
that is too small is not shared. -/
def share (minDispatch resting : Nat) (s : MarkStack) : Nat :=
  if s.size < minDispatch ∨ resting = 0 then 0 else s.size / (resting + 1)

/-- Sends a share to each of some workers. The share of a worker that does not accept it returns
to the stack. -/
def handOut (accepts : Nat → Bool) (count : Nat) : List Nat → UInt64 → MarkStack → Handout
  | [], active, s => { active, pending := s }
  | i :: rest, active, s =>
    match s.takeOldest count with
    | (batch, s) =>
      if accepts i then
        let others := handOut accepts count rest (Word.withBit active i) s
        { others with batches := (i, batch) :: others.batches }
      else handOut accepts count rest active (s.extend batch)

def dispatch (minDispatch workers : Nat) (accepts : Nat → Bool) (active : UInt64)
    (s : MarkStack) : Handout :=
  let resting := restingWorkers workers active
  match s.share minDispatch resting.length with
  | 0 => { active, pending := s }
  | count => s.handOut accepts count resting active

/-- Puts half of a large stack aside if somebody rests and nothing is there yet. Returns what is
aside and the stack. -/
def offerSurplus (minDispatch : Nat) (someoneRests : Bool) (surplus : List Addr) (s : MarkStack) :
    List Addr × MarkStack :=
  if 2 * minDispatch ≤ s.size && someoneRests && surplus.isEmpty then s.takeOldest (s.size / 2)
  else (surplus, s)

def takeSurplus (surplus : List Addr) (s : MarkStack) : List Addr × MarkStack :=
  ([], s.extend surplus)

theorem handOut_perm (accepts : Nat → Bool) (count : Nat) (resting : List Nat) (active : UInt64)
    (s : MarkStack) :
    let h := s.handOut accepts count resting active
    (h.batches.flatMap (·.2) ++ h.pending.toList).Perm s.toList := by
  induction resting generalizing active s with
  | nil => exact List.Perm.refl _
  | cons i rest ih =>
    have cut := toList_takeOldest s count
    simp only [handOut]
    split
    · rw [List.flatMap_cons, List.append_assoc, ← cut]
      exact (ih _ _).append_left _
    · rw [← cut]
      refine (ih active _).trans ?_
      rw [toList_extend]
      exact List.perm_append_comm

theorem offerSurplus_perm (minDispatch : Nat) (someoneRests : Bool) (surplus : List Addr)
    (s : MarkStack) :
    let r := s.offerSurplus minDispatch someoneRests surplus
    (r.1 ++ r.2.toList).Perm (surplus ++ s.toList) := by
  simp only [offerSurplus]
  split
  · next h =>
    obtain rfl : surplus = [] := by simpa using (Bool.and_eq_true_iff.1 h).2
    rw [toList_takeOldest, List.nil_append]
  · exact List.Perm.refl _

theorem takeSurplus_perm (surplus : List Addr) (s : MarkStack) :
    let r := s.takeSurplus surplus
    (r.1 ++ r.2.toList).Perm (surplus ++ s.toList) := by
  simp only [takeSurplus, toList_extend, List.nil_append]
  exact List.perm_append_comm

end MarkStack

end MarkSweep
