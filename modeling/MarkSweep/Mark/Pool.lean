import MarkSweep.Mark
import MarkSweep.Mark.Sharing

set_option autoImplicit false

/-!
# Marking with workers

A pool is a leader and some workers that mark one heap together. Each has a mark stack of its own;
the mark bits, the surplus, the word of active workers and two flags belong to all. The pool is a
machine: `Pool.step` lets one thread make its next access to what belongs to all, so a run of the
pool is any interleaving of such steps.

The leader's run ends when its stack is empty, no worker is active and then no surplus is left, or
when the run is cancelled because somebody failed. It returns how many blocks were scanned. One pool
makes any number of runs, each in the heap as it is then.

The last three fields of a pool are a record of the run under way. No step reads them.
-/

namespace MarkSweep

/-- A thread in the course of scanning blocks. -/
structure Scanner where
  pending : MarkStack := {}
  words : List UInt64 := []
  budget : Nat := 0
  scanned : Nat := 0
deriving DecidableEq, Repr, Inhabited

namespace Scanner

def next? (s : Scanner) : Option Addr :=
  if s.words.isEmpty && 0 < s.budget then s.pending.entries.head? else none

def isPaused (s : Scanner) : Bool := s.words.isEmpty && s.next?.isNone

/-- Follows one word, or takes up the next block. `grows` says whether the stack can take an entry
more, if it must. -/
def advance (around : Surroundings) (grows : Bool) (a : Arena) (s : Scanner) :
    Except Error Scanner × Arena :=
  match s.words with
  | w :: words =>
    if w = 0 then (.ok { s with words }, a)
    else
      match ({ arena := a, pending := s.pending } : Marker).markExact w.toNat with
      | (true, m) =>
        if grows then (.ok { s with words, pending := m.pending }, m.arena)
        else (.error (.markStackExhausted s.pending.size), m.arena)
      | (false, m) => (.ok { s with words }, m.arena)
  | [] =>
    match s.budget, s.pending.pop with
    | budget + 1, some (addr, pending) =>
      match a.references around addr with
      | .error e => (.error e, a)
      | .ok words => (.ok { pending, words, budget, scanned := s.scanned + 1 }, a)
    | _, _ => (.ok s, a)

end Scanner

inductive WorkerStage
  | resting
  | looking
  | scanning
  | refilling
  /-- See whether the stack is large, and whether the leader rests. -/
  | offering
  /-- See whether another worker rests. -/
  | comparing
  /-- Put half of the stack aside. -/
  | sharing
  | closing (fault : Option Error)
  | failing (fault : Error)
  | recording (fault : Error)
  | leaving
  | lost
deriving DecidableEq, Repr

structure Worker where
  stage : WorkerStage := .resting
  scanner : Scanner := {}
  inbox : List (List Addr) := []
deriving DecidableEq, Repr

inductive LeaderStage
  | resting (result : Option (Except Error Nat))
  | dealing
  | sending (workers : List Nat) (count : Nat)
  | looking
  | scanning
  /-- Take the surplus. If there is none the run is over, provided that no worker was active. -/
  | refilling (nobodyActive : Bool)
  | counting
  | pausing
  | waking
  | ending (result : Except Error Nat)
  | settling (result : Except Error Nat)
  | stirring (result : Except Error Nat)
  | reporting (result : Except Error Nat)

structure Pool where
  workers : Array Worker
  interval : Nat
  minDispatch : Nat
  leader : LeaderStage := .resting none
  scanner : Scanner := {}
  arena : Arena := default
  around : Surroundings
  active : UInt64 := 0
  surplus : List Addr := []
  leaderRests : Bool := false
  cancelled : Bool := false
  /-- The failure of a worker that the leader has not returned yet. -/
  failure : Option Error := none
  scanned : Nat := 0
  start : Marker
  scans : List Addr := []
  faults : List Error := []

namespace Pool

def new (workers interval minDispatch : Nat) : Pool where
  workers := Array.replicate workers {}
  interval := interval
  minDispatch := max 1 minDispatch
  around := { word := fun _ => 0, layout? := fun _ => none }
  start := { arena := default }

/-- The first worker that was lost with work in its hands. -/
def lost? (p : Pool) : Option Nat :=
  (List.range p.workers.size).find? fun i =>
    Word.bit p.active i && (p.workers[i]?.map (·.stage)) == some .lost

def waiting (p : Pool) : List Addr :=
  p.scanner.pending.toList ++ p.surplus ++
    p.workers.toList.flatMap fun w => w.scanner.pending.toList ++ w.inbox.flatten

def modifyWorker (p : Pool) (i : Nat) (f : Worker → Worker) : Pool :=
  { p with workers := p.workers.modify i f }

def leaderFails (p : Pool) (e : Error) : Pool :=
  { p with leader := .ending (.error e), faults := p.faults ++ [e] }

def begin (around : Surroundings) (m : Marker) (p : Pool) : Option Pool :=
  match p.leader with
  | .resting _ =>
    some { p with
      leader := .dealing, scanner := { pending := m.pending }, arena := m.arena, around
      surplus := [], cancelled := false, scanned := 0
      start := m, scans := [], faults := [] }
  | _ => none

/-- The leader sends a share to a worker. One that is lost does not accept it. -/
def send (grows : Bool) (i count : Nat) (p : Pool) : Pool :=
  match p.scanner.pending.takeOldest count with
  | (batch, pending) =>
    let keep := fun pending => { p with scanner := { p.scanner with pending } }
    if (p.workers[i]?.map (·.stage)) ≠ some .lost then
      { keep pending with active := Word.withBit p.active i }.modifyWorker i fun w =>
        { w with inbox := w.inbox ++ [batch] }
    else if grows then keep (pending.extend batch)
    else
      let e := Error.markStackExhausted pending.size
      { keep pending with
        cancelled := true, failure := p.failure <|> some e, faults := p.faults ++ [e] }

def leaderStep (grows : Bool) (p : Pool) : Option Pool :=
  match p.leader with
  | .resting _ => none
  | .dealing =>
    let resting := restingWorkers p.workers.size p.active
    match p.scanner.pending.share p.minDispatch resting.length with
    | 0 => some { p with leader := .looking }
    | count => some { p with leader := .sending resting count }
  | .sending [] _ => some { p with leader := .looking }
  | .sending (i :: rest) count => some { p.send grows i count with leader := .sending rest count }
  | .looking =>
    if p.cancelled then some { p with leader := .ending (.ok p.scanner.scanned) }
    else some { p with leader := .scanning, scanner := { p.scanner with budget := p.interval } }
  | .scanning =>
    if p.scanner.isPaused then
      if p.scanner.pending.isEmpty then some { p with leader := .refilling false }
      else some { p with leader := .dealing }
    else
      let p := { p with scans := p.scans ++ p.scanner.next?.toList }
      match p.scanner.advance p.around grows p.arena with
      | (.ok scanner, arena) => some { p with scanner, arena }
      | (.error e, arena) => some ({ p with arena }.leaderFails e)
  | .refilling nobodyActive =>
    match p.surplus with
    | [] =>
      if nobodyActive then some { p with leader := .ending (.ok p.scanner.scanned) }
      else some { p with leader := .counting }
    | surplus =>
      if grows then
        match p.scanner.pending.takeSurplus surplus with
        | (surplus, pending) =>
          some { p with
            leader := if nobodyActive then .looking else .dealing
            scanner := { p.scanner with pending }, surplus }
      else some (p.leaderFails (.markStackExhausted p.scanner.pending.size))
  | .counting =>
    some { p with leader := if p.active = 0 then .refilling true else .pausing }
  | .pausing => some { p with leader := .waking, leaderRests := true }
  | .waking =>
    let p := { p with leaderRests := false }
    match p.lost? with
    | some i => some (p.leaderFails (.corruption (.markerLost i)))
    | none => some { p with leader := .looking }
  | .ending result =>
    some { p with leader := .settling result, cancelled := p.cancelled || !result.isOk }
  | .settling result =>
    some { p with leader := if p.active = 0 then .reporting result else .stirring result }
  | .stirring result =>
    match p.lost? with
    | none => some { p with leader := .settling result }
    | some i =>
      let e := Error.corruption (.markerLost i)
      some { p with
        leader := .reporting (result.bind fun _ => .error e), faults := p.faults ++ [e] }
  | .reporting result =>
    let p := { p with leaderRests := false }
    match result, p.failure with
    | .error e, _ => some { p with leader := .resting (some (.error e)) }
    | .ok _, some e => some { p with leader := .resting (some (.error e)), failure := none }
    | .ok n, none => some { p with leader := .resting (some (.ok (n + p.scanned))) }

/-- A worker takes its next step. `free` says whether it finds the surplus unlocked when it makes
an offer. -/
def workerStep (i : Nat) (grows free : Bool) (p : Pool) : Option Pool := do
  let w ← p.workers[i]?
  let turn := fun (stage : WorkerStage) (p : Pool) => p.modifyWorker i ({ · with stage })
  let keep := fun (scanner : Scanner) (p : Pool) => p.modifyWorker i ({ · with scanner })
  let fault := fun (e : Error) (p : Pool) =>
    turn (.closing (some e)) { p with faults := p.faults ++ [e] }
  match w.stage with
  | .resting =>
    match w.inbox with
    | [] => none
    | batch :: inbox =>
      some (p.modifyWorker i fun _ =>
        { stage := .looking, scanner := { pending := .ofList batch }, inbox })
  | .looking =>
    if p.cancelled then some (turn (.closing none) p)
    else some (turn .scanning (keep { w.scanner with budget := p.interval } p))
  | .scanning =>
    if w.scanner.isPaused then
      if w.scanner.pending.isEmpty then some (turn .refilling p) else some (turn .offering p)
    else
      let p := { p with scans := p.scans ++ w.scanner.next?.toList }
      match w.scanner.advance p.around grows p.arena with
      | (.ok scanner, arena) => some (keep scanner { p with arena })
      | (.error e, arena) => some (fault e { p with arena })
  | .refilling =>
    match p.surplus with
    | [] => some (turn (.closing none) p)
    | surplus =>
      if grows then
        match w.scanner.pending.takeSurplus surplus with
        | (surplus, pending) =>
          some (turn .looking (keep { w.scanner with pending } { p with surplus }))
      else some (fault (.markStackExhausted w.scanner.pending.size) p)
  | .offering =>
    if w.scanner.pending.size < 2 * p.minDispatch then some (turn .looking p)
    else if p.leaderRests then some (turn .sharing p)
    else some (turn .comparing p)
  | .comparing =>
    if (restingWorkers p.workers.size p.active).isEmpty then some (turn .looking p)
    else some (turn .sharing p)
  | .sharing =>
    match w.scanner.pending.offerSurplus p.minDispatch free p.surplus with
    | (surplus, pending) =>
      some (turn .looking (keep { w.scanner with pending } { p with surplus }))
  | .closing found =>
    let p := { p with scanned := p.scanned + w.scanner.scanned }
    match found with
    | some e => some (turn (.failing e) p)
    | none => some (turn .leaving p)
  | .failing e => some (turn (.recording e) { p with cancelled := true })
  | .recording e => some (turn .leaving { p with failure := p.failure <|> some e })
  | .leaving =>
    some (turn .resting (keep {} { p with active := Word.withoutBit p.active i }))
  | .lost => none

def lose (i : Nat) (p : Pool) : Option Pool := do
  let w ← p.workers[i]?
  if w.stage = .resting then none else some (p.modifyWorker i ({ · with stage := .lost }))

inductive Action
  | begin (around : Surroundings) (start : Marker)
  | leader (grows : Bool)
  | worker (i : Nat) (grows free : Bool)
  | lose (i : Nat)

def step : Action → Pool → Option Pool
  | .begin around start, p => p.begin around start
  | .leader grows, p => p.leaderStep grows
  | .worker i grows free, p => p.workerStep i grows free
  | .lose i, p => p.lose i

inductive Reachable (workers interval minDispatch : Nat) : Pool → Prop
  | new : Reachable workers interval minDispatch (Pool.new workers interval minDispatch)
  | step {p q : Pool} (action : Action) (before : Reachable workers interval minDispatch p)
      (taken : p.step action = some q) : Reachable workers interval minDispatch q

/-- What the last run returned, with the heap and the leader's stack as they are now. -/
def returned? (p : Pool) : Option (Except Error Nat × Marker) :=
  match p.leader with
  | .resting (some result) => some (result, { arena := p.arena, pending := p.scanner.pending })
  | _ => none

end Pool

/-- What emptying a mark stack may come to: the collector has scanned all blocks alone, or as the
leader of some pool. -/
inductive Marker.Emptied (ctx : MarkContext) (m : Marker) : Except Error Nat × Marker → Prop
  | alone : Marker.Emptied ctx m (m.drainAll ctx)
  | together {workers interval minDispatch : Nat} {p : Pool} {out : Except Error Nat × Marker}
      (few : workers ≤ maxMarkThreads) (often : 0 < interval)
      (run : Pool.Reachable workers interval minDispatch p) (start : p.start = m)
      (around : p.around = ctx.toSurroundings) (returned : p.returned? = some out) :
      Marker.Emptied ctx m out

end MarkSweep
