import MarkSweep.Page
import Std.Data.ExtTreeMap

set_option autoImplicit false

/-!
# The page directory

The directory finds the page that holds an address. It is a table of tables: eight bits of an
address choose a table and sixteen bits choose a slot in it. The bits above are folded into the
first index, so granules far apart may share a slot. A page is installed in the slots of all its
granules or not at all; it is refused if another page holds one of them. Since a slot says little
about an address, a look-up ends with a test of the page's bounds.

The directory is read through `slot`, the page in the slot of an address.
-/

namespace MarkSweep

abbrev DirectoryTable := Std.ExtTreeMap Nat Page

structure Directory where
  tables : Std.ExtTreeMap Nat DirectoryTable := ∅
  pageCount : Nat := 0

namespace Directory

instance : Inhabited Directory := ⟨{}⟩

/-- The table of an address: eight bits of its granule's number with the eight bits above
folded in. -/
def tableIndex (a : Addr) : Nat := ((a >>> 32) ^^^ (a >>> 40)) % 256

def slotIndex (a : Addr) : Nat := (a >>> 16) % 65536

def capacity : Nat := 256 * 65536

def slot (d : Directory) (a : Addr) : Option Page :=
  match d.tables[tableIndex a]? with
  | some t => t[slotIndex a]?
  | none => none

def lookup (d : Directory) (a : Addr) : Option Page :=
  (d.slot a).filter (·.contains a)

def tableCount (d : Directory) : Nat := d.tables.size

/-- The page in the way of a new one: another page in the first slot that is not free. -/
def obstacle? (d : Directory) (p : Page) : Option Page :=
  p.granules.findSome? fun g => (d.slot g).filter (· ≠ p)

/-- Puts a page into the slots of some granules that are free, making tables as they are needed.
`grant` says of which tables the host can supply the memory; the walk ends at the first it
cannot. -/
def fill (grant : Nat → Bool) (p : Page) : List Addr → Directory → Bool × Directory
  | [], d => (true, d)
  | g :: gs, d =>
    match d.tables[tableIndex g]? with
    | some t =>
      if t.contains (slotIndex g) then fill grant p gs d
      else fill grant p gs
        { d with tables := d.tables.insert (tableIndex g) (t.insert (slotIndex g) p) }
    | none =>
      if grant (tableIndex g) then
        let t := (∅ : DirectoryTable).insert (slotIndex g) p
        fill grant p gs { d with tables := d.tables.insert (tableIndex g) t }
      else (false, d)

def vacate (p : Page) : List Addr → Directory → Bool × Directory
  | [], d => (false, d)
  | g :: gs, d =>
    match d.tables[tableIndex g]? with
    | some t =>
      if t[slotIndex g]? = some p then
        let rest := t.erase (slotIndex g)
        let tables := if rest.isEmpty then d.tables.erase (tableIndex g)
          else d.tables.insert (tableIndex g) rest
        (true, (vacate p gs { d with tables := tables }).2)
      else vacate p gs d
    | none => vacate p gs d

/-- Installs a page over all its granules. A page that is installed already changes nothing, and
a refused page leaves no trace. -/
def install (grant : Nat → Bool) (p : Page) (d : Directory) : Except Error Unit × Directory :=
  match d.obstacle? p with
  | some other => (.error (.directoryCollision p.base other.base), d)
  | none =>
    if p.granules.all fun g => (d.slot g).isSome then (.ok (), d)
    else
      match fill grant p p.granules d with
      | (true, d) => (.ok (), { d with pageCount := d.pageCount + 1 })
      | (false, d) => (.error .directoryExhausted, (vacate p p.granules d).2)

def remove (p : Page) (d : Directory) : Directory :=
  match vacate p p.granules d with
  | (true, d) => { d with pageCount := d.pageCount - 1 }
  | (false, d) => d

end Directory

end MarkSweep
