import MarkSweep.Dump

set_option autoImplicit false

namespace MarkSweep

inductive ReadError
  | truncated
  | badMagic
  | unsupportedVersion
  | badTypeName
deriving DecidableEq, Repr

def ReadError.message? : ReadError → Option String
  | truncated => none
  | badMagic => some "bad dump magic"
  | unsupportedVersion => some "unsupported dump version"
  | badTypeName => some "type name"

abbrev Reader := StateT (List UInt8) (Except ReadError)

namespace Reader

def cut? : Nat → List UInt8 → Option (List UInt8 × List UInt8)
  | 0, rest => some ([], rest)
  | _ + 1, [] => none
  | n + 1, b :: rest =>
    match cut? n rest with
    | none => none
    | some (front, rest) => some (b :: front, rest)

theorem cut?_eq_some_iff {n : Nat} {input front rest : List UInt8} :
    cut? n input = some (front, rest) ↔ input = front ++ rest ∧ front.length = n := by
  fun_induction cut? n input generalizing front rest with
  | case1 r => cases front <;> simp [eq_comm]
  | case2 n => cases front <;> simp
  | case3 n b r h ih =>
    have ih' : ∀ f q, ¬ (r = f ++ q ∧ f.length = n) := fun f q e => by simpa [h] using ih.2 e
    cases front with
    | nil => simp
    | cons c f => simpa using fun _ e => fun hl => ih' f rest ⟨e, hl⟩
  | case4 n b r f q h ih =>
    obtain ⟨e, hl⟩ := ih.1 h
    cases front with
    | nil => simp
    | cons c g =>
      simp only [Option.some.injEq, Prod.mk.injEq, List.cons.injEq, List.cons_append,
        List.length_cons, Nat.succ_eq_add_one, Nat.add_right_cancel_iff]
      constructor
      · rintro ⟨⟨rfl, rfl⟩, rfl⟩
        exact ⟨⟨rfl, e⟩, hl⟩
      · rintro ⟨⟨rfl, e'⟩, hl'⟩
        have back : cut? n r = some (g, rest) := ih.2 ⟨e', hl'⟩
        simpa [h] using back

def bytes (n : Nat) : Reader (List UInt8) := fun input =>
  match cut? n input with
  | some (front, rest) => .ok (front, rest)
  | none => .error .truncated

def value (bs : List UInt8) : Nat := bs.foldr (fun b n => b.toNat + 256 * n) 0

def number (width : Nat) : Reader Nat := value <$> bytes width

def blob : Reader (List UInt8) := do bytes (← number 4)

def many {α : Type} (record : Reader α) : Nat → Reader (List α)
  | 0 => pure []
  | n + 1 => do
    let a ← record
    let rest ← many record n
    return a :: rest

def list {α : Type} (record : Reader α) : Reader (List α) := do many record (← number 4)

def word : Reader UInt64 := UInt64.ofNat <$> number 8

def page : Reader PageRecord := do
  let base ← word
  let size ← word
  let kind ← number 1
  let scanKind ← number 1
  let blockSize ← number 4
  let blockCount ← number 4
  let live ← blob
  return { base, size, kind := .ofNat kind, scanKind := .ofNat scanKind,
           blockSize := .ofNat blockSize, blockCount, live }

def root : Reader (UInt64 × UInt64) := do
  let slot ← word
  let value ← word
  return (slot, value)

def thread : Reader ThreadImage := do
  let stackTop ← word
  let sp ← word
  let words ← list word
  return { stackTop, sp, words }

def type : Reader TypeImage := do
  let identity ← word
  let nameBytes ← blob
  match String.fromUTF8? ⟨nameBytes.toArray⟩ with
  | none => throw .badTypeName
  | some name =>
    let mapOffset ← number 4
    let pointerMap ← list word
    return { identity, name, mapOffset, pointerMap }

def dump : Reader HeapDump := do
  unless (← bytes 4) = dumpMagic do throw .badMagic
  unless (← number 2) = dumpVersion do throw .unsupportedVersion
  let flags ← number 2
  let pages ← list page
  let roots ← list root
  let threads ← list thread
  let types ← list type
  return { flags := .ofNat flags, pages, roots, threads, types }

end Reader

/-- Reads a dump and returns the bytes behind it too. -/
def HeapDump.decode (input : List UInt8) : Except ReadError (HeapDump × List UInt8) :=
  Reader.dump.run input

end MarkSweep
