import MarkSweep.Dump

set_option autoImplicit false

namespace MarkSweep

/-- Bytes produced, and whether nothing is missing from them. -/
structure Written where
  bytes : List UInt8
  complete : Bool := true
deriving DecidableEq, Repr, Inhabited

namespace Written

def nothing : Written := ⟨[], true⟩

def append (v w : Written) : Written :=
  if v.complete then ⟨v.bytes ++ w.bytes, w.complete⟩ else v

instance : Append Written := ⟨append⟩

def concat : List Written → Written
  | [] => nothing
  | w :: rest => w ++ concat rest

def number (width n : Nat) : Written :=
  ⟨(List.range width).map fun i => UInt8.ofNat (n >>> (8 * i)), true⟩

def count (n : Nat) : Written := if n < UInt32.size then number 4 n else ⟨[], false⟩

def blob (bytes : List UInt8) : Written := count bytes.length ++ ⟨bytes, true⟩

def list {α : Type} (record : α → Written) (items : List α) : Written :=
  count items.length ++ concat (items.map record)

def words (ws : List UInt64) : Written := list (fun w => number 8 w.toNat) ws

end Written

open Written

def PageRecord.encode (p : PageRecord) : Written :=
  concat [number 8 p.base.toNat, number 8 p.size.toNat, number 1 p.kind.toNat,
    number 1 p.scanKind.toNat, number 4 p.blockSize.toNat, count p.blockCount, blob p.live]

def ThreadImage.encode (t : ThreadImage) : Written :=
  concat [number 8 t.stackTop.toNat, number 8 t.sp.toNat, Written.words t.words]

def TypeImage.encode (t : TypeImage) : Written :=
  concat [number 8 t.identity.toNat, blob t.name.toUTF8.data.toList, count t.mapOffset,
    Written.words t.pointerMap]

def encodeRoot (r : UInt64 × UInt64) : Written := number 8 r.1.toNat ++ number 8 r.2.toNat

def HeapDump.encode (d : HeapDump) : Written :=
  concat [⟨dumpMagic, true⟩, number 2 dumpVersion, number 2 d.flags.toNat,
    list PageRecord.encode d.pages, list encodeRoot d.roots, list ThreadImage.encode d.threads,
    list TypeImage.encode d.types]

inductive DumpError
  | refused
  | tooLong
deriving DecidableEq, Repr

/-- Sends what was written to a receiver that takes a limited number of bytes. Returns the bytes
that arrived. -/
def Written.send (limit : Option Nat) (w : Written) : List UInt8 × Except DumpError Unit :=
  let outcome := if w.complete then .ok () else .error .tooLong
  match limit with
  | none => (w.bytes, outcome)
  | some n => if n < w.bytes.length then (w.bytes.take n, .error .refused) else (w.bytes, outcome)

/-- Sends pieces to such a receiver one by one. Nothing is sent behind a piece that did not arrive in
full. -/
def Written.sendPieces (limit : Option Nat) :
    List Written → List UInt8 × Except DumpError Unit
  | [] => ([], .ok ())
  | w :: rest =>
    match w.send limit with
    | (bytes, .error e) => (bytes, .error e)
    | (bytes, .ok ()) =>
      match sendPieces (limit.map (· - bytes.length)) rest with
      | (more, outcome) => (bytes ++ more, outcome)

end MarkSweep
