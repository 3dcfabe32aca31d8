import MarkSweep.Bitmap
import MarkSweep.Total

set_option autoImplicit false

namespace MarkSweep

structure Racer where
  todo : List Nat
  looked : Bool := false
  results : List (Nat × Bool) := []
deriving DecidableEq, Repr, Inhabited

namespace Racer

def calls (racer : Racer) : List Nat := racer.results.map (·.1) ++ racer.todo

def left (racer : Racer) : Nat := 2 * racer.todo.length - racer.looked.toNat

end Racer

structure Race where
  bitmap : Bitmap
  racers : Array Racer
deriving DecidableEq, Repr

namespace Race

def start (size : Nat) (tasks : List (List Nat)) : Race where
  bitmap := .empty size
  racers := (tasks.map fun todo => { todo }).toArray

/-- A thread makes its next access, if it has a bit left. -/
def step (i : Nat) (r : Race) : Option Race := do
  let racer ← r.racers[i]?
  match racer.todo with
  | [] => none
  | bit :: todo =>
    let done := fun won => { todo, results := racer.results ++ [(bit, won)] : Racer }
    let turn := fun (racer : Racer) (bitmap : Bitmap) =>
      some { bitmap, racers := r.racers.setIfInBounds i racer }
    match racer.looked, r.bitmap.get bit with
    | false, true => turn (done false) r.bitmap
    | false, false => turn { racer with looked := true } r.bitmap
    | true, before => turn (done !before) (r.bitmap.set bit)

inductive Reachable (size : Nat) (tasks : List (List Nat)) : Race → Prop
  | start : Reachable size tasks (Race.start size tasks)
  | step {r s : Race} (i : Nat) (before : Reachable size tasks r) (taken : r.step i = some s) :
      Reachable size tasks s

def results (r : Race) : List (Nat × Bool) := r.racers.toList.flatMap (·.results)

def isOver (r : Race) : Bool := r.racers.toList.all (·.todo.isEmpty)

def left (r : Race) : Nat := total Racer.left r.racers.toList

/-- The bitmap is cleared, and threads set bits of it again. -/
def again (tasks : List (List Nat)) (r : Race) : Race :=
  { Race.start r.bitmap.size tasks with bitmap := r.bitmap.clear }

end Race

end MarkSweep
