import MarkSweep.Bitmap

set_option autoImplicit false

namespace MarkSweep

structure TypeLayout where
  name : String
  mapOffset : Nat
  pointerMap : Bitmap
deriving DecidableEq, Repr, Inhabited

def Bitmap.ofFlags (flags : List Bool) : Bitmap :=
  (flags.zipIdx.filter (·.1)).foldl (fun b f => b.set f.2) (empty flags.length)

namespace TypeLayout

def ofFlags (name : String) (mapOffset : Nat) (flags : List Bool) : TypeLayout where
  name := name
  mapOffset := mapOffset
  pointerMap := Bitmap.ofFlags flags

def object (name : String) (flags : List Bool) : TypeLayout := ofFlags name 1 flags

/-- A tagged value: the words after the type and the tag are in the map. -/
def tagged (name : String) (flags : List Bool) : TypeLayout := ofFlags name 2 flags

def pointerWords (t : TypeLayout) (blockWords : Nat) : List Nat :=
  (t.pointerMap.members.map (t.mapOffset + ·)).takeWhile (· < blockWords)

end TypeLayout

end MarkSweep
