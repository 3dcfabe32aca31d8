set_option autoImplicit false

namespace MarkSweep

inductive Phase
  | idle
  | stopRequested
  | worldStopped
deriving DecidableEq, Repr, Inhabited

def Phase.text : Phase → String
  | idle => "Idle"
  | stopRequested => "StopRequested"
  | worldStopped => "WorldStopped"

inductive Patience
  | forever
  | limited
deriving DecidableEq, Repr

structure Safepoint where
  phase : Phase := .idle
  requests : Nat := 0
  achieved : Nat := 0
  timeouts : Nat := 0
  ended : Nat := 0
  polls : Nat := 0
  parks : Nat := 0
deriving DecidableEq, Repr, Inhabited

namespace Safepoint

def stopRequested (s : Safepoint) : Bool := s.phase ≠ .idle

def request (s : Safepoint) : Safepoint :=
  { s with phase := .stopRequested, requests := s.requests + 1 }

def achieve (s : Safepoint) : Safepoint :=
  { s with phase := .worldStopped, achieved := s.achieved + 1 }

/-- A stop that was asked for is in effect at once if every thread is parked already. -/
def settle (allParked : Bool) (s : Safepoint) : Safepoint := if allParked then s.achieve else s

def abandon (s : Safepoint) : Safepoint :=
  { s with phase := .idle, timeouts := s.timeouts + 1 }

def resume (s : Safepoint) : Safepoint :=
  { s with phase := .idle, ended := s.ended + 1 }

def recordPoll (s : Safepoint) : Safepoint := { s with polls := s.polls + 1 }

def recordPark (s : Safepoint) : Safepoint := { s with parks := s.parks + 1 }

end Safepoint

end MarkSweep
