import MarkSweep.Arena

set_option autoImplicit false

namespace MarkSweep

/-- What the host grants during one allocation. -/
structure Host where
  /-- The base of the zero-filled range that an arena is offered at the n-th attempt to place a
  page of some size. -/
  region : Arena → (size : Nat) → (attempt : Nat) → Option Addr
  /-- Whether there is memory for a directory table, by its index, at the n-th attempt. -/
  table : (attempt : Nat) → Nat → Bool

def Host.IsAligned (host : Host) : Prop :=
  ∀ (a : Arena) (size attempt : Nat) (base : Addr), host.region a size attempt = some base →
    granule ∣ base ∧ 0 < base ∧ base + size < UInt64.size

/-- A host that offers an arena only what it may use: aligned ranges of addresses that no page of
the arena has. -/
def Host.IsSound (host : Host) : Prop :=
  host.IsAligned ∧
    ∀ (a : Arena) (size attempt : Nat) (base : Addr), host.region a size attempt = some base →
      ∀ s ∈ a.slabs, base + size ≤ s.page.base ∨ s.page.limit ≤ base

def maxPlacementRetries : Nat := 16

def roundUp (n unit : Nat) : Nat := (n + unit - 1) / unit * unit

namespace Arena

/-- Installs a page over the first range on offer that collides with no other page.
`retries` attempts may still fail. -/
def place (region : (attempt : Nat) → Option Addr) (table : (attempt : Nat) → Nat → Bool)
    (describe : Addr → Page) : (retries : Nat) → Directory → Except Error Page × Directory
  | retries, d =>
    let attempt := maxPlacementRetries - retries
    match region attempt with
    | none => (.error (.outOfMemory (describe 0).size), d)
    | some base =>
      match retries, d.install (table attempt) (describe base) with
      | _, (.ok (), d) => (.ok (describe base), d)
      | retries + 1, (.error (.directoryCollision _ _), d) => place region table describe retries d
      | _, (.error e, d) => (.error e, d)

def addPage (host : Host) (size : Nat) (kind : PageKind) (blockSize : Nat) (a : Arena) :
    Except Error Nat × Arena :=
  if a.heapLimit ≠ 0 ∧ a.heapLimit < a.privateBytes + size then (.error (.outOfMemory size), a)
  else
    let describe := fun base => ({ id := a.mapped, base, size, kind, blockSize } : Page)
    match place (host.region a size) host.table describe maxPlacementRetries a.directory with
    | (.error e, d) => (.error e, { a with directory := d })
    | (.ok page, d) =>
      (.ok a.slabs.size,
        { a with
          directory := d
          slabs := a.slabs.push (Slab.fresh page)
          byBase := a.byBase.insert page.base a.slabs.size
          privateBytes := a.privateBytes + size
          mapped := a.mapped + 1 })

def takeFrom (i : Nat) (a : Arena) : Option Block × Arena :=
  match a.slabs[i]? with
  | none => (none, a)
  | some s =>
    match s.takeFree with
    | (none, s) => (none, { a with slabs := a.slabs.setIfInBounds i s })
    | (some index, s) =>
      (some ⟨s.page.blockAddr index, s.page.blockSize⟩,
        { a with
          slabs := a.slabs.setIfInBounds i s
          liveBlocks := a.liveBlocks + 1
          liveBytes := a.liveBytes + s.page.blockSize })

/-- Takes a block from the first of some slabs that has one. Slabs without a free block leave the
list of their class, one that gives its last included. -/
def takeRoomy (c : SizeClass) : List Nat → Arena → Option Block × Arena
  | [], a => (none, a)
  | i :: rest, a =>
    match a.takeFrom i with
    | (none, a) => takeRoomy c rest { a with roomy := a.roomy.insert c rest }
    | (some b, a) =>
      if (a.slabs.getD i default).isFull then
        (some b, { a with roomy := a.roomy.insert c rest })
      else (some b, a)

/-- A block of a class, from a slab with room or else from a page mapped for the class. A page
may be too small for a single block, and is then followed by another until one is refused. Every
page takes slots of the directory, so more tries than the directory has slots are never made. -/
def takeOrMap (host : Host) (c : SizeClass) : (tries : Nat) → Arena → Except Error Block × Arena
  | 0, a => (.error (.outOfMemory granule), a)
  | tries + 1, a =>
    match a.takeRoomy c (a.roomyIn c) with
    | (some b, a) => (.ok b, a)
    | (none, a) =>
      match a.addPage host granule (.small c.kind) c.blockSize with
      | (.error e, a) => (.error e, a)
      | (.ok i, a) =>
        takeOrMap host c tries { a with roomy := a.roomy.insert c (i :: a.roomyIn c) }

def allocateSmall (host : Host) (size : Nat) (kind : BlockKind) (a : Arena) :
    Except Error Block × Arena :=
  a.takeOrMap host (SizeClass.of kind size) (Directory.capacity + 1)

def allocateHuge (host : Host) (size : Nat) (kind : BlockKind) (a : Arena) :
    Except Error Block × Arena :=
  let blockSize := roundUp size minBlock
  match a.addPage host (roundUp blockSize granule) (.huge kind) blockSize with
  | (.error e, a) => (.error e, a)
  | (.ok i, a) =>
    match a.takeFrom i with
    | (some b, a) => (.ok b, a)
    | (none, a) => (.error (.corruption .freshPageFull), a)

def allocate (host : Host) (size : Nat) (kind : BlockKind) (a : Arena) :
    Except Error Block × Arena :=
  if size = 0 ∨ maxRequest < size then (.error (.invalidAllocation size), a)
  else if a.hugeThreshold < size then a.allocateHuge host size kind
  else a.allocateSmall host size kind

end Arena

end MarkSweep
