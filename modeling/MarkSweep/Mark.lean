import MarkSweep.Arena
import MarkSweep.Mark.Stack
import MarkSweep.Thread

set_option autoImplicit false

namespace MarkSweep

/-- What marking consults besides the arena. -/
structure MarkContext extends Surroundings where
  resolve : Arena → Page → Addr → Option Addr := Arena.resolveInterior

structure Marker where
  arena : Arena
  pending : MarkStack := {}

def Arena.testAndMark (a : Arena) (p : Page) (index : Nat) : Bool × Arena :=
  match a.byBase[p.base]? with
  | none => (false, a)
  | some i =>
    match a.slabs[i]? with
    | none => (false, a)
    | some s =>
      match s.marks.testAndSet index with
      | (won, marks) => (won, { a with slabs := a.slabs.setIfInBounds i { s with marks } })

def Arena.unmarked (a : Arena) : Nat :=
  total (fun s => s.marks.size - s.marks.count) a.slabs.toList

namespace Marker

/-- Marks a block and puts its start on the stack, unless it was marked before. Says whether this
call marked it. -/
def claim (p : Page) (index : Nat) (start : Addr) (m : Marker) : Bool × Marker :=
  match m.arena.testAndMark p index with
  | (true, arena) => (true, { arena, pending := m.pending.push start })
  | (false, arena) => (false, { m with arena })

def markExact (addr : Addr) (m : Marker) : Bool × Marker :=
  match m.arena.directory.lookup addr with
  | none => (false, m)
  | some p =>
    match m.arena.blockId? p addr with
    | none => (false, m)
    | some index => m.claim p index addr

def markConservative (ctx : MarkContext) (addr : Addr) (m : Marker) :
    Except Error Bool × Marker :=
  match m.arena.directory.lookup addr with
  | none => (.ok false, m)
  | some p =>
    match ctx.resolve m.arena p addr with
    | none => (.ok false, m)
    | some start =>
      match m.arena.blockId? p start with
      | none => (.error (.corruption (.interiorNotStart addr start)), m)
      | some index =>
        match m.claim p index start with
        | (marked, m) => (.ok marked, m)

def markEach (words : List UInt64) (m : Marker) : Marker :=
  words.foldl (fun m w => if w = 0 then m else (m.markExact w.toNat).2) m

def markAround (ctx : MarkContext) : List UInt64 → Marker → Except Error Unit × Marker
  | [], m => (.ok (), m)
  | w :: rest, m =>
    if w = 0 then markAround ctx rest m
    else
      match m.markConservative ctx w.toNat with
      | (.ok _, m) => markAround ctx rest m
      | (.error e, m) => (.error e, m)

end Marker

/-- The words of a block that may be references. A typed block has none while its type is unset. -/
def Slab.references (around : Surroundings) (s : Slab) (addr : Addr) : List UInt64 :=
  let size := s.page.blockSize / wordBytes
  let word := fun i => s.read (addr + i * wordBytes)
  match s.page.kind.contents with
  | .pointerFree => []
  | .raw => (List.range size).map word
  | .typed =>
    if word 0 = 0 then []
    else
      match around.layout? (word 0) with
      | some layout => (layout.pointerWords size).map word
      | none => []

def Arena.references (around : Surroundings) (a : Arena) (addr : Addr) :
    Except Error (List UInt64) :=
  match a.directory.lookup addr with
  | none => .error (.corruption (.blockWithoutPage addr))
  | some p =>
    match a.slab? p with
    | none => .ok []
    | some s => .ok (s.references around addr)

namespace Marker

def scan (ctx : MarkContext) (addr : Addr) (m : Marker) : Except Error Unit × Marker :=
  match m.arena.references ctx.toSurroundings addr with
  | .error e => (.error e, m)
  | .ok words => (.ok (), m.markEach words)

def drain (ctx : MarkContext) : (budget : Nat) → Marker → Except Error Nat × Marker
  | 0, m => (.ok 0, m)
  | budget + 1, m =>
    match m.pending.pop with
    | none => (.ok 0, m)
    | some (addr, pending) =>
      match { m with pending }.scan ctx addr with
      | (.error e, m) => (.error e, m)
      | (.ok (), m) =>
        match drain ctx budget m with
        | (.error e, m) => (.error e, m)
        | (.ok n, m) => (.ok (n + 1), m)

/-- How many scans empty the stack at the most: each takes an entry from it, and an entry is added
only for a block that had no mark. -/
def fuel (m : Marker) : Nat := m.pending.size + m.arena.unmarked

def drainAll (ctx : MarkContext) (m : Marker) : Except Error Nat × Marker := m.drain ctx m.fuel

def scanThread (ctx : MarkContext) (r : ThreadRecord) (m : Marker) : Except Error Nat × Marker :=
  match r.scannedWords ctx.toSurroundings with
  | .error e => (.error e, m)
  | .ok words =>
    match m.markAround ctx words with
    | (.error e, m) => (.error e, m)
    | (.ok (), m) => (.ok words.length, m)

end Marker

end MarkSweep
