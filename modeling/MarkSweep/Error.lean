import MarkSweep.Text.Quoted

set_option autoImplicit false

namespace MarkSweep

/-- A byte address. Addresses are natural numbers, and those the machine has are below `2 ^ 64`. -/
abbrev Addr := Nat

inductive Corruption
  | interiorNotStart (word start : Addr)
  | blockWithoutPage (block : Addr)
  | stackBounds (thread : String) (low high : Addr)
  | markerLost (index : Nat)
  | freshPageFull
  | other (note : String)
deriving DecidableEq, Repr

inductive Error
  | alreadyRegistered (thread : String)
  | notRegistered (thread : String)
  | unbalancedBlocking
  | invalidAllocation (size : Nat)
  | outOfMemory (requested : Nat)
  | directoryExhausted
  | directoryCollision (base other : Addr)
  | markStackExhausted (entries : Nat)
  | corruption (what : Corruption)
deriving DecidableEq, Repr

open Text in
def Corruption.message : Corruption → String
  | interiorNotStart word start =>
    s!"interior pointer {hex word} resolved to {hex start}, which is not a block start"
  | blockWithoutPage block => s!"marked block {hex block} has no page"
  | stackBounds thread low high =>
    s!"thread {thread} has implausible stack bounds [{hex low}, {hex high})"
  | markerLost index => s!"marker thread {index} exited while holding work"
  | freshPageFull => "fresh huge page has no free block"
  | other note => note

namespace Error

open Text in
def message : Error → String
  | alreadyRegistered thread => s!"thread {thread} is already registered with the collector"
  | notRegistered thread => s!"thread {thread} is not registered with the collector"
  | unbalancedBlocking => "exit_blocking called without a matching enter_blocking"
  | invalidAllocation size => s!"invalid allocation size {size}"
  | outOfMemory requested => s!"out of memory while allocating {requested} bytes"
  | directoryExhausted => "page directory table allocation failed"
  | directoryCollision base other =>
    s!"page {hex base} collides with installed page {hex other} in the directory"
  | markStackExhausted entries => s!"mark stack could not grow past {entries} entries"
  | corruption what => s!"heap corruption: {what.message}"

/-- Failures that a correct caller never provokes. -/
def isMisuse : Error → Bool
  | alreadyRegistered _ | notRegistered _ | unbalancedBlocking | invalidAllocation _ => true
  | _ => false

/-- Failures that a collection may cure. -/
def isExhaustion : Error → Bool
  | outOfMemory _ | directoryExhausted | directoryCollision _ _ | markStackExhausted _ => true
  | _ => false

end Error

end MarkSweep
