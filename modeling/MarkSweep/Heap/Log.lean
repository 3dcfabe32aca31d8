import MarkSweep.Heap.History

set_option autoImplicit false

/-!
# Logs of a heap

A log tells which blocks a heap has handed out and what its collections have kept and freed, the
latest event first. An operation is a row of steps. A step is an event, or it changes nothing that a
log tells of: marks, words of blocks, requests for a stop, and what belongs to threads and roots.
-/

namespace MarkSweep

inductive Event
  | allocated (b : Block)
  | collected (report : SweepReport)
deriving DecidableEq, Repr

namespace Event

def blocks : List Event → List Block
  | [] => []
  | allocated b :: earlier => b :: blocks earlier
  | collected _ :: earlier => blocks earlier

def recent : List Event → List Block
  | [] => []
  | allocated b :: earlier => b :: recent earlier
  | collected _ :: _ => []

def past : List Event → List Block
  | [] => []
  | allocated _ :: earlier => past earlier
  | collected _ :: earlier => blocks earlier

def reports : List Event → List SweepReport
  | [] => []
  | allocated _ :: earlier => reports earlier
  | collected report :: earlier => report :: reports earlier

end Event

structure Threads.Enrolled (t : Threads) : Prop where
  distinct : (t.registered.map (·.1)).Nodup
  recorded : ∀ e ∈ t.registered, ∃ r, t.record? e.2 = some r ∧ r.thread = e.1

def Safepoint.tally (s : Safepoint) : Nat × Nat × Nat := (s.requests, s.achieved, s.timeouts)

namespace Heap

/-- Whether nothing has happened from one heap to another but to threads, roots and settings. -/
structure Quiet (h h' : Heap) : Prop where
  arena : h'.arena = h.arena
  stats : h'.stats = h.stats
  tally : h'.safepoint.tally = h.safepoint.tally
  threads : h.threads.Enrolled → h'.threads.Enrolled

inductive Step (h : Heap) : List Event → Heap → Prop
  | quiet {h' : Heap} (same : h.Quiet h') : Step h [] h'
  | write {b : Block} {addr : Addr} (w : UInt64) (held : h.arena.Holds b)
      (inside : b.Contains addr) : Step h [] { h with arena := h.arena.write addr w }
  | achieve {g : Heap} (parking : Quiet { h with safepoint := h.safepoint.request } g) :
      Step h [] { g with safepoint := g.safepoint.achieve }
  | abandon {g : Heap} (parking : Quiet { h with safepoint := h.safepoint.request } g) :
      Step h [] { g with safepoint := g.safepoint.abandon }
  | mark {a : Arena} (same : a.clearMarks = h.arena.clearMarks) (pending : MarkStack) :
      Step h [] { h with arena := a, pending }
  | refuse {host : Host} {size : Nat} {kind : BlockKind} {e : Error} {a : Arena}
      (aligned : host.IsAligned) (asked : h.arena.allocate host size kind = (.error e, a)) :
      Step h [] { h with arena := a }
  | allocate {host : Host} {size : Nat} {kind : BlockKind} {b : Block} {a : Arena}
      (aligned : host.IsAligned) (asked : h.arena.allocate host size kind = (.ok b, a)) :
      Step h [.allocated b] { h with arena := a, stats := h.stats.recordAllocation b.size }
  | collect (nanos : Nat) :
      Step h [.collected h.sweep.1]
        { h.sweep.2.resumeWorld with
          stats := h.sweep.2.resumeWorld.stats.recordCollection nanos h.sweep.1 }

inductive Steps (h : Heap) : List Event → Heap → Prop
  | refl : Steps h [] h
  | tail {g h' : Heap} {earlier events : List Event} (before : Steps h earlier g)
      (step : g.Step events h') : Steps h (events ++ earlier) h'

end Heap

def Answer.block? : Answer → Option Block
  | .block (.done b) => some b
  | .collectedAllocating (.done (some (_, .done b))) => some b
  | _ => none

def Answer.report? : Answer → Option SweepReport
  | .collected (.done (some report)) => some report.sweep
  | .collectedLeaving (.done (some (report, _))) => some report.sweep
  | .collectedAllocating (.done (some (report, _))) => some report.sweep
  | _ => none

/-- All events of an operation, where its answer says what they are: the collection that was asked
for, or none. -/
def Answer.events? : Answer → Option (List Event)
  | .collected (.done none) => some []
  | .collected (.done (some report)) => some [.collected report.sweep]
  | .wasDue (.done false) => some []
  | .collectedLeaving (.done none) => some []
  | .collectedLeaving (.done (some (report, _))) => some [.collected report.sweep]
  | .collectedAllocating (.done none) => some []
  | _ => none

/-- Whether an answer tells the truth about the events of an operation: it hands out the block that
was allocated, reports on the collection that came first, and leaves nothing out where it says what
they are. -/
structure Answer.Tells (answer : Answer) (events : List Event) : Prop where
  blocks : Event.blocks events = answer.block?.toList
  report : ∀ report, answer.report? = some report → ∃ later, events = later ++ [.collected report]
  all : ∀ told, answer.events? = some told → events = told

namespace Heap

/-- The heaps that a program with certain settings can bring about, with their logs. -/
inductive Logged (config : Config) : Heap → List Event → Prop
  | new {h : Heap} (made : Heap.new config = .ok h) : Logged config h []
  | perform {h : Heap} {log events : List Event} (operation : Operation)
      (before : Logged config h log) (admitted : h.Admits operation)
      (steps : h.Steps events (h.perform operation).2)
      (told : (h.perform operation).1.Tells events) :
      Logged config (h.perform operation).2 (events ++ log)

end Heap

end MarkSweep
