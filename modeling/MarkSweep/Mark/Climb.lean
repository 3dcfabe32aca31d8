import MarkSweep.Mark

set_option autoImplicit false

namespace MarkSweep

theorem toNat_add_wordBytes {x : UInt64} (room : x.toNat + wordBytes < UInt64.size) :
    (x + 8).toNat = x.toNat + wordBytes := by
  rw [UInt64.toNat_add]
  exact Nat.mod_eq_of_lt room

namespace Marker

/-- Looks at the words of a stack from a cursor up, with addresses in machine words. A word is looked
at while it ends no higher than the top; nothing is returned where that end cannot be written. -/
def climb? (ctx : MarkContext) (top cursor : UInt64) (m : Marker) :
    Option (Except Error Nat × Marker) :=
  if cursor.toNat + wordBytes < UInt64.size then
    if cursor + 8 ≤ top then
      match m.markAround ctx [ctx.word cursor.toNat] with
      | (.error e, m) => some (.error e, m)
      | (.ok (), m) =>
        (climb? ctx top (cursor + 8) m).map fun
          | (.error e, m) => (.error e, m)
          | (.ok n, m) => (.ok (n + 1), m)
    else some (.ok 0, m)
  else none
termination_by UInt64.size - cursor.toNat
decreasing_by
  rw [toNat_add_wordBytes ‹_›]
  unfold wordBytes at *
  omega

def scanThread? (ctx : MarkContext) (r : ThreadRecord) (m : Marker) :
    Option (Except Error Nat × Marker) :=
  if !r.snapshot.isCaptured then some (.ok 0, m)
  else if r.stackIsPlausible then
    (m.climb? ctx (.ofNat r.stackTop) (.ofNat r.scanStart)).map fun
      | (.error e, m) => (.error e, m)
      | (.ok n, m) =>
        match m.markAround ctx r.snapshot.words with
        | (.error e, m) => (.error e, m)
        | (.ok (), m) => (.ok (n + r.snapshot.words.length), m)
  else some (.error (.corruption (.stackBounds r.name r.scanStart r.stackTop)), m)

end Marker

end MarkSweep
