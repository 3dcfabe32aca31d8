import MarkSweep.Config
import MarkSweep.Text.Blank

set_option autoImplicit false

/-!
# Settings from the environment

Four variables override the standard settings: a count of helper threads and three toggles.
Blanks around a value do not count. A value that cannot be read is reported with the variable
that holds it; only when all can be read are the settings checked as a whole.
-/

namespace MarkSweep

/-- A count below `2 ^ 64` in decimal digits, after an optional plus sign. -/
def readCount? (s : List Char) : Option Nat :=
  let digits := match s with
    | '+' :: rest => rest
    | _ => s
  let value := digits.foldl (fun n c => n * 10 + (c.toNat - '0'.toNat)) 0
  if !digits.isEmpty && digits.all Char.isDigit && value < UInt64.size then some value else none

def readToggle? (s : List Char) : Option Bool :=
  if String.ofList s ∈ ["1", "true", "on", "yes"] then some true
  else if String.ofList s ∈ ["0", "false", "off", "no", ""] then some false
  else none

namespace Config

/-- Reads one variable and stores its value; an absent variable changes nothing. -/
def override {α : Type} (lookup : String → Option String) (key : String)
    (read? : List Char → Option α) (store : Config → α → Config) (c : Config) :
    Except ConfigError Config :=
  match lookup key with
  | none => .ok c
  | some value =>
    match read? (Text.trim value.toList) with
    | none => .error (.invalidVariable key value)
    | some a => .ok (store c a)

def ofEnvironment (processors : Nat) (lookup : String → Option String) :
    Except ConfigError Config := do
  let c ← override lookup "PRISM_GC_MARK_THREADS" readCount?
    (fun c n => { c with markThreads := n }) (standard processors)
  let c ← override lookup "PRISM_GC_FORCE_MAJOR" readToggle?
    (fun c b => { c with flags := { c.flags with forceMajor := b } }) c
  let c ← override lookup "PRISM_GC_NO_MARK" readToggle?
    (fun c b => { c with flags := { c.flags with noMark := b } }) c
  let c ← override lookup "PRISM_GC_PROFILE" readToggle?
    (fun c b => { c with flags := { c.flags with profile := b } }) c
  c.check
  return c

end Config

end MarkSweep
