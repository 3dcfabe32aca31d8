import MarkSweep.Error

set_option autoImplicit false

namespace MarkSweep

inductive Outcome (α : Type)
  | done (a : α)
  | failed (e : Error)
  | waits
deriving DecidableEq, Repr, Inhabited

namespace Outcome

def ofExcept {α : Type} : Except Error α → Outcome α
  | .ok a => done a
  | .error e => failed e

def map {α β : Type} (f : α → β) : Outcome α → Outcome β
  | done a => done (f a)
  | failed e => failed e
  | waits => waits

end Outcome

end MarkSweep
