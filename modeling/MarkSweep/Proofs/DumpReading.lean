import MarkSweep.Dump.Reader
import MarkSweep.Dump.Writer
import Mathlib.Tactic.Common

set_option autoImplicit false

/-!
# Reading what was written

The reader of dumps is made of readers of fields, and the writer of writers of fields, in the same
order. A reader takes what its writer makes of a value if it returns that value exactly when the
input begins so; this carries over from fields to records, from records to lists of them, and so to
dumps. The reader of a dump has other complaints than the end of its input about three fields only.
-/

namespace MarkSweep

namespace Written

/-- Whether an input begins with all of what was written, and what is behind it. -/
def Opens (w : Written) (input rest : List UInt8) : Prop :=
  w.complete = true ∧ input = w.bytes ++ rest

theorem opens_append {v w : Written} {input rest : List UInt8} :
    (v ++ w).Opens input rest ↔ ∃ mid, v.Opens input mid ∧ w.Opens mid rest := by
  change (append v w).Opens input rest ↔ _
  unfold append
  split
  · next complete =>
    constructor
    · rintro ⟨complete', rfl⟩
      exact ⟨w.bytes ++ rest, ⟨complete, List.append_assoc _ _ _⟩, complete', rfl⟩
    · rintro ⟨mid, ⟨-, rfl⟩, complete', rfl⟩
      exact ⟨complete', (List.append_assoc _ _ _).symm⟩
  · next missing =>
    constructor
    · rintro ⟨complete, -⟩
      exact absurd complete missing
    · rintro ⟨mid, ⟨complete, -⟩, -⟩
      exact absurd complete missing

theorem append_nothing (w : Written) : w ++ nothing = w := by
  change append w nothing = w
  unfold append
  split
  · next complete => exact congr (congrArg mk (List.append_nil _)) complete.symm
  · rfl

@[simp] theorem opens_nothing {input rest : List UInt8} : nothing.Opens input rest ↔ input = rest := by
  simp [Opens, nothing]

theorem Opens.more {w : Written} {input rest : List UInt8} (opens : w.Opens input rest)
    (more : List UInt8) : w.Opens (input ++ more) (rest ++ more) := by
  obtain ⟨complete, rfl⟩ := opens
  exact ⟨complete, List.append_assoc _ _ _⟩

theorem opens_count {n : Nat} {input rest : List UInt8} :
    (count n).Opens input rest ↔ n < UInt32.size ∧ (number 4 n).Opens input rest := by
  unfold count Opens
  split
  · next fits => simp [fits, number]
  · next long => simp [long]

theorem bytes_number_succ (width n : Nat) :
    (number (width + 1) n).bytes = UInt8.ofNat n :: (number width (n / 256)).bytes := by
  have shift : ∀ i, n >>> (8 * (i + 1)) = (n / 256) >>> (8 * i) := fun i => by
    rw [Nat.mul_add, Nat.add_comm, Nat.shiftRight_add, Nat.mul_one, Nat.shiftRight_eq_div_pow n 8]
  simp only [number, List.range_succ_eq_map, List.map_cons, List.map_map]
  refine congr (congrArg _ (by simp)) (List.map_congr_left fun i _ => ?_)
  exact congrArg UInt8.ofNat (shift i)

theorem length_bytes_number (width n : Nat) : (number width n).bytes.length = width := by
  simp [number]

end Written

namespace Reader

variable {α β : Type}

/-- Whether a reader returns a value of some collection exactly when the input begins with what a
writer makes of it. -/
def ReadsWithin (r : Reader α) (S : α → Prop) (w : α → Written) : Prop :=
  ∀ (input : List UInt8) (a : α) (rest : List UInt8),
    r input = .ok (a, rest) ↔ S a ∧ (w a).Opens input rest

/-- Whether a reader returns a value exactly when the input begins with what a writer makes of
it. -/
def Reads (r : Reader α) (w : α → Written) : Prop := ReadsWithin r (fun _ => True) w

theorem bind_eq_ok_iff {r : Reader α} {f : α → Reader β} {input rest : List UInt8} {b : β} :
    (r >>= f) input = .ok (b, rest) ↔ ∃ a mid, r input = .ok (a, mid) ∧ f a mid = .ok (b, rest) := by
  change StateT.bind r f input = _ ↔ _
  unfold StateT.bind
  cases r input with
  | error e => simp [bind, Except.bind]
  | ok p => simp [bind, Except.bind, Prod.ext_iff]

theorem readsWithin_pure {a : α} {S : α → Prop} (only : ∀ b, S b ↔ b = a) :
    ReadsWithin (pure a) S fun _ => Written.nothing := by
  intro input b rest
  change Except.ok (a, input) = .ok (b, rest) ↔ _
  rw [only, Written.opens_nothing, Except.ok.injEq, Prod.mk.injEq, eq_comm (a := a)]

theorem ReadsWithin.field {r : Reader α} {T : α → Prop} {w : α → Written} {f : α → Reader β}
    {S : β → Prop} {v : β → Written} (head : ReadsWithin r T w) (get : β → α)
    (within : ∀ b, S b → T (get b))
    (tail : ∀ a, T a → ReadsWithin (f a) (fun b => S b ∧ get b = a) v) :
    ReadsWithin (r >>= f) S fun b => w (get b) ++ v b := by
  intro input b rest
  rw [bind_eq_ok_iff, Written.opens_append]
  constructor
  · rintro ⟨a, mid, first, second⟩
    obtain ⟨inside, opens⟩ := (head _ _ _).1 first
    obtain ⟨⟨here, rfl⟩, opens'⟩ := (tail a inside _ _ _).1 second
    exact ⟨here, mid, opens, opens'⟩
  · rintro ⟨here, mid, opens, opens'⟩
    have inside := within b here
    exact ⟨get b, mid, (head _ _ _).2 ⟨inside, opens⟩, (tail _ inside _ _ _).2 ⟨⟨here, rfl⟩, opens'⟩⟩

theorem readsWithin_bytes (n : Nat) :
    ReadsWithin (bytes n) (fun bs => bs.length = n) fun bs => ⟨bs, true⟩ := by
  intro input bs rest
  have answer : bytes n input = .ok (bs, rest) ↔ cut? n input = some (bs, rest) := by
    unfold bytes
    cases cut? n input <;> simp [Prod.ext_iff]
  change _ ↔ bs.length = n ∧ true = true ∧ input = bs ++ rest
  rw [answer, cut?_eq_some_iff, and_iff_right rfl, and_comm]

theorem shiftLeft_succ (width : Nat) : 1 <<< (8 * (width + 1)) = 256 * 1 <<< (8 * width) := by
  rw [Nat.mul_add, Nat.mul_one, Nat.shiftLeft_add, Nat.shiftLeft_eq _ 8, Nat.mul_comm]

theorem value_bytes_number {width n : Nat} (fits : n < 1 <<< (8 * width)) :
    value (Written.number width n).bytes = n := by
  induction width generalizing n with
  | zero => simpa [value, Written.number, eq_comm] using fits
  | succ width ih =>
    rw [shiftLeft_succ] at fits
    rw [Written.bytes_number_succ]
    change (UInt8.ofNat n).toNat + 256 * value _ = n
    rw [ih (Nat.div_lt_of_lt_mul fits), UInt8.toNat_ofNat']
    lia

theorem bytes_number_value (bs : List UInt8) :
    (Written.number bs.length (value bs)).bytes = bs ∧ value bs < 1 <<< (8 * bs.length) := by
  induction bs with
  | nil => simp [Written.number, value]
  | cons b bs ih =>
    have low : b.toNat < 256 := b.toNat_lt
    have split : value (b :: bs) = b.toNat + 256 * value bs := rfl
    have high : value (b :: bs) / 256 = value bs := by lia
    constructor
    · rw [List.length_cons, Written.bytes_number_succ, high, ih.1]
      refine congrArg (· :: bs) (UInt8.toNat_inj.1 ?_)
      rw [UInt8.toNat_ofNat']
      lia
    · rw [List.length_cons, shiftLeft_succ]
      have below := ih.2
      lia

theorem readsWithin_number {width size : Nat} (whole : 1 <<< (8 * width) = size) :
    ReadsWithin (number width) (· < size) (Written.number width) := by
  subst whole
  intro input n rest
  have taken := readsWithin_bytes width input
  change (value <$> bytes width) input = _ ↔ _
  rw [← bind_pure_comp, bind_eq_ok_iff]
  constructor
  · rintro ⟨bs, mid, first, second⟩
    obtain ⟨rfl, -, rfl⟩ := (taken _ _).1 first
    obtain ⟨rfl, rfl⟩ := Prod.mk.inj (Except.ok.inj second)
    obtain ⟨same, fits⟩ := bytes_number_value bs
    exact ⟨fits, rfl, by rw [same]⟩
  · rintro ⟨fits, -, rfl⟩
    refine ⟨_, rest, (taken _ _).2 ⟨Written.length_bytes_number width n, rfl, rfl⟩, ?_⟩
    rw [value_bytes_number fits]
    rfl

theorem readsWithin_byte : ReadsWithin (number 1) (· < UInt8.size) (Written.number 1) :=
  readsWithin_number rfl

theorem reads_count : Reads (number 4) Written.count := by
  intro input n rest
  have whole : 1 <<< (8 * 4) = UInt32.size := rfl
  change _ ↔ True ∧ _
  rw [true_and, Written.opens_count]
  exact readsWithin_number whole input n rest

theorem reads_word : Reads word fun w => Written.number 8 w.toNat := by
  intro input w rest
  have whole : 1 <<< (8 * 8) = UInt64.size := rfl
  change (UInt64.ofNat <$> number 8) input = _ ↔ True ∧ (Written.number 8 w.toNat).Opens input rest
  rw [← bind_pure_comp, bind_eq_ok_iff, true_and]
  constructor
  · rintro ⟨n, mid, first, second⟩
    obtain ⟨fits, opens⟩ := (readsWithin_number whole _ _ _).1 first
    obtain ⟨rfl, rfl⟩ := Prod.mk.inj (Except.ok.inj second)
    rwa [UInt64.toNat_ofNat_of_lt' fits]
  · intro opens
    exact ⟨_, rest, (readsWithin_number whole _ _ _).2 ⟨w.toNat_lt, opens⟩,
      by rw [UInt64.ofNat_toNat]; rfl⟩

theorem reads_blob : Reads blob Written.blob :=
  reads_count.field List.length (fun _ _ => trivial) fun n _ input bs rest => by
    simpa only [true_and] using readsWithin_bytes n input bs rest

theorem readsWithin_many {record : Reader α} {w : α → Written} (reads : Reads record w) (n : Nat) :
    ReadsWithin (many record n) (fun as => as.length = n) fun as => .concat (as.map w) := by
  intro input as rest
  change _ ↔ as.length = n ∧ (Written.concat (as.map w)).Opens input rest
  induction n generalizing input as with
  | zero =>
    change Except.ok ([], input) = .ok (as, rest) ↔ _
    rw [List.length_eq_zero_iff, Except.ok.injEq, Prod.mk.injEq, eq_comm (a := [])]
    refine and_congr_right ?_
    rintro rfl
    exact Written.opens_nothing.symm
  | succ n ih =>
    change (record >>= fun a => many record n >>= fun rest => pure (a :: rest)) input = _ ↔ _
    simp only [bind_eq_ok_iff]
    constructor
    · rintro ⟨a, mid, first, as', mid', others, last⟩
      obtain ⟨rfl, rfl⟩ := Prod.mk.inj (Except.ok.inj last)
      obtain ⟨rfl, opens⟩ := (ih _ _).1 others
      exact ⟨rfl, Written.opens_append.2 ⟨mid, ((reads _ _ _).1 first).2, opens⟩⟩
    · rintro ⟨length, opens⟩
      cases as with
      | nil => simp at length
      | cons a as =>
        obtain ⟨mid, first, others⟩ := Written.opens_append.1 opens
        exact ⟨a, mid, (reads _ _ _).2 ⟨trivial, first⟩, as, rest,
          (ih _ _).2 ⟨Nat.succ.inj length, others⟩, rfl⟩

theorem reads_list {record : Reader α} {w : α → Written} (reads : Reads record w) :
    Reads (list record) (Written.list w) :=
  reads_count.field List.length (fun _ _ => trivial) fun n _ input as rest => by
    simpa only [true_and] using readsWithin_many reads n input as rest

theorem reads_root : Reads root encodeRoot := by
  have written : encodeRoot = fun r =>
      .number 8 r.1.toNat ++ (.number 8 r.2.toNat ++ .nothing) := funext fun r => by
    rw [Written.append_nothing]
    rfl
  rw [written]
  refine reads_word.field Prod.fst (fun _ _ => trivial) fun slot _ => ?_
  refine reads_word.field Prod.snd (fun _ _ => trivial) fun value _ => ?_
  refine readsWithin_pure fun r => ⟨?_, ?_⟩
  · rintro ⟨⟨-, rfl⟩, rfl⟩
    rfl
  · rintro rfl
    exact ⟨⟨trivial, rfl⟩, rfl⟩

theorem reads_page : Reads page PageRecord.encode := by
  refine reads_word.field PageRecord.base (fun _ _ => trivial) fun base _ => ?_
  refine reads_word.field PageRecord.size (fun _ _ => trivial) fun size _ => ?_
  refine readsWithin_byte.field (fun p : PageRecord => p.kind.toNat) (fun p _ => p.kind.toNat_lt)
    fun kind small => ?_
  refine readsWithin_byte.field (fun p : PageRecord => p.scanKind.toNat)
    (fun p _ => p.scanKind.toNat_lt) fun scanKind small' => ?_
  have whole : 1 <<< (8 * 4) = UInt32.size := rfl
  refine (readsWithin_number whole).field (fun p : PageRecord => p.blockSize.toNat)
    (fun p _ => p.blockSize.toNat_lt) fun blockSize fits => ?_
  refine reads_count.field PageRecord.blockCount (fun _ _ => trivial) fun blockCount _ => ?_
  refine reads_blob.field PageRecord.live (fun _ _ => trivial) fun live _ => ?_
  refine readsWithin_pure fun p => ⟨?_, ?_⟩
  · rintro ⟨⟨⟨⟨⟨⟨⟨-, rfl⟩, rfl⟩, rfl⟩, rfl⟩, rfl⟩, rfl⟩, rfl⟩
    simp only [UInt8.ofNat_toNat, UInt32.ofNat_toNat]
  · rintro rfl
    exact ⟨⟨⟨⟨⟨⟨⟨trivial, rfl⟩, rfl⟩, UInt8.toNat_ofNat_of_lt' small⟩,
      UInt8.toNat_ofNat_of_lt' small'⟩, UInt32.toNat_ofNat_of_lt' fits⟩, rfl⟩, rfl⟩

theorem reads_thread : Reads thread ThreadImage.encode := by
  refine reads_word.field ThreadImage.stackTop (fun _ _ => trivial) fun stackTop _ => ?_
  refine reads_word.field ThreadImage.sp (fun _ _ => trivial) fun sp _ => ?_
  refine (reads_list reads_word).field ThreadImage.words (fun _ _ => trivial) fun words _ => ?_
  refine readsWithin_pure fun t => ⟨?_, ?_⟩
  · rintro ⟨⟨⟨-, rfl⟩, rfl⟩, rfl⟩
    rfl
  · rintro rfl
    exact ⟨⟨⟨trivial, rfl⟩, rfl⟩, rfl⟩

def name : Reader String := do
  match String.fromUTF8? ⟨(← blob).toArray⟩ with
  | none => throw .badTypeName
  | some name => pure name

theorem type_eq : type = word >>= fun identity => name >>= fun name => number 4 >>= fun mapOffset =>
    list word >>= fun pointerMap => pure { identity, name, mapOffset, pointerMap } := by
  unfold type name
  refine bind_congr fun identity => ?_
  rw [bind_assoc]
  refine bind_congr fun bs => ?_
  cases String.fromUTF8? ⟨bs.toArray⟩ <;> rfl

theorem fromUTF8?_eq_some_iff {bs : List UInt8} {s : String} :
    String.fromUTF8? ⟨bs.toArray⟩ = some s ↔ bs = s.toUTF8.data.toList := by
  rw [String.toUTF8_eq_toByteArray]
  unfold String.fromUTF8?
  split
  · next valid =>
    constructor
    · rintro same
      cases same
      rfl
    · rintro rfl
      rfl
  · next invalid =>
    constructor
    · rintro ⟨⟩
    · rintro rfl
      exact absurd s.isValidUTF8 invalid

theorem fromUTF8?_eq_none_iff {bytes : ByteArray} :
    String.fromUTF8? bytes = none ↔ ¬ bytes.IsValidUTF8 := by
  unfold String.fromUTF8?
  split <;> simp [*]

theorem reads_name : Reads name fun s => Written.blob s.toUTF8.data.toList := by
  intro input s rest
  unfold name
  rw [bind_eq_ok_iff]
  change _ ↔ True ∧ (Written.blob s.toUTF8.data.toList).Opens input rest
  constructor
  · rintro ⟨bs, mid, first, second⟩
    obtain ⟨-, opens⟩ := (reads_blob _ _ _).1 first
    cases text : String.fromUTF8? ⟨bs.toArray⟩ with
    | none =>
      rw [text] at second
      cases second
    | some s' =>
      rw [text] at second
      obtain ⟨rfl, rfl⟩ := Prod.mk.inj (Except.ok.inj second)
      exact ⟨trivial, fromUTF8?_eq_some_iff.1 text ▸ opens⟩
  · rintro ⟨-, opens⟩
    refine ⟨_, rest, (reads_blob _ _ _).2 ⟨trivial, opens⟩, ?_⟩
    rw [fromUTF8?_eq_some_iff.2 rfl]
    rfl

theorem reads_type : Reads type TypeImage.encode := by
  rw [type_eq]
  refine reads_word.field TypeImage.identity (fun _ _ => trivial) fun identity _ => ?_
  refine reads_name.field TypeImage.name (fun _ _ => trivial) fun name _ => ?_
  refine reads_count.field TypeImage.mapOffset (fun _ _ => trivial) fun mapOffset _ => ?_
  refine (reads_list reads_word).field TypeImage.pointerMap (fun _ _ => trivial) fun map _ => ?_
  refine readsWithin_pure fun t => ⟨?_, ?_⟩
  · rintro ⟨⟨⟨⟨-, rfl⟩, rfl⟩, rfl⟩, rfl⟩
    rfl
  · rintro rfl
    exact ⟨⟨⟨⟨trivial, rfl⟩, rfl⟩, rfl⟩, rfl⟩

def expect [DecidableEq α] (field : Reader α) (a : α) (e : ReadError) : Reader Unit := do
  unless (← field) = a do throw e

theorem dump_eq : dump = expect (bytes 4) dumpMagic .badMagic >>= fun _ =>
    expect (number 2) dumpVersion .unsupportedVersion >>= fun _ => number 2 >>= fun flags =>
    list page >>= fun pages => list root >>= fun roots => list thread >>= fun threads =>
    list type >>= fun types => pure { flags := .ofNat flags, pages, roots, threads, types } := by
  unfold dump expect
  simp only [bind_assoc]
  refine bind_congr fun magic => ?_
  split
  · rw [pure_bind]
    refine bind_congr fun version => ?_
    split
    · rw [pure_bind]
    · rfl
  · rfl

theorem reads_expect [DecidableEq α] {field : Reader α} {S : α → Prop} {w : α → Written}
    (reads : ReadsWithin field S w) {a : α} (inside : S a) (e : ReadError) :
    Reads (expect field a e) fun _ => w a := by
  intro input u rest
  unfold expect
  rw [bind_eq_ok_iff]
  change _ ↔ True ∧ (w a).Opens input rest
  constructor
  · rintro ⟨b, mid, first, second⟩
    by_cases same : b = a
    · subst same
      rw [if_pos rfl] at second
      obtain ⟨-, rfl⟩ := Prod.mk.inj (Except.ok.inj second)
      exact ⟨trivial, ((reads _ _ _).1 first).2⟩
    · rw [if_neg same] at second
      cases second
  · rintro ⟨-, opens⟩
    exact ⟨a, rest, (reads _ _ _).2 ⟨inside, opens⟩, by rw [if_pos rfl]; rfl⟩

theorem reads_dump : Reads dump HeapDump.encode := by
  rw [dump_eq]
  have version : 1 <<< (8 * 2) = UInt16.size := rfl
  refine (reads_expect (readsWithin_bytes 4) rfl _).field (fun _ => ()) (fun _ _ => trivial)
    fun _ _ => ?_
  refine (reads_expect (readsWithin_number version) (by decide) _).field (fun _ => ())
    (fun _ _ => trivial) fun _ _ => ?_
  refine (readsWithin_number version).field (fun d : HeapDump => d.flags.toNat)
    (fun d _ => d.flags.toNat_lt) fun flags small => ?_
  refine (reads_list reads_page).field HeapDump.pages (fun _ _ => trivial) fun pages _ => ?_
  refine (reads_list reads_root).field HeapDump.roots (fun _ _ => trivial) fun roots _ => ?_
  refine (reads_list reads_thread).field HeapDump.threads (fun _ _ => trivial) fun threads _ => ?_
  refine (reads_list reads_type).field HeapDump.types (fun _ _ => trivial) fun types _ => ?_
  refine readsWithin_pure fun d => ⟨?_, ?_⟩
  · rintro ⟨⟨⟨⟨⟨-, rfl⟩, rfl⟩, rfl⟩, rfl⟩, rfl⟩
    simp only [UInt16.ofNat_toNat]
  · rintro rfl
    exact ⟨⟨⟨⟨⟨⟨⟨trivial, rfl⟩, rfl⟩, UInt16.toNat_ofNat_of_lt' small⟩, rfl⟩, rfl⟩, rfl⟩, rfl⟩

end Reader
end MarkSweep
