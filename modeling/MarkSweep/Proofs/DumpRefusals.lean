import MarkSweep.Proofs.DumpReading

set_option autoImplicit false

namespace MarkSweep

namespace Reader

variable {α β : Type}

theorem bind_eq_error_iff {r : Reader α} {f : α → Reader β} {input : List UInt8} {e : ReadError} :
    (r >>= f) input = .error e ↔
      r input = .error e ∨ ∃ a mid, r input = .ok (a, mid) ∧ f a mid = .error e := by
  change StateT.bind r f input = _ ↔ _
  unfold StateT.bind
  cases r input with
  | error e => simp [bind, Except.bind]
  | ok p => simp [bind, Except.bind, Prod.ext_iff]

/-- Whether a reader has no complaint but that its input ends. -/
def Plain (r : Reader α) : Prop := ∀ input e, r input = .error e → e = .truncated

theorem plain_pure (a : α) : Plain (pure a) := by
  rintro input e ⟨⟩

theorem Plain.bind {r : Reader α} {f : α → Reader β} (head : Plain r) (tail : ∀ a, Plain (f a)) :
    Plain (r >>= f) := by
  intro input e failed
  obtain early | ⟨a, mid, -, late⟩ := bind_eq_error_iff.1 failed
  · exact head _ _ early
  · exact tail a _ _ late

theorem Plain.map {r : Reader α} (plain : Plain r) (f : α → β) : Plain (f <$> r) := by
  rw [← bind_pure_comp]
  exact plain.bind fun a => plain_pure (f a)

theorem plain_bytes (n : Nat) : Plain (bytes n) := by
  intro input e failed
  unfold bytes at failed
  split at failed
  · cases failed
  · exact (Except.error.inj failed).symm

theorem plain_number (width : Nat) : Plain (number width) := (plain_bytes width).map value

theorem plain_word : Plain word := (plain_number 8).map UInt64.ofNat

theorem plain_blob : Plain blob := (plain_number 4).bind plain_bytes

theorem plain_many {record : Reader α} (plain : Plain record) (n : Nat) :
    Plain (many record n) := by
  induction n with
  | zero => exact plain_pure []
  | succ n ih => exact plain.bind fun a => ih.bind fun as => plain_pure (a :: as)

theorem plain_list {record : Reader α} (plain : Plain record) : Plain (list record) :=
  (plain_number 4).bind (plain_many plain)

theorem plain_page : Plain page :=
  plain_word.bind fun _ => plain_word.bind fun _ => (plain_number 1).bind fun _ =>
    (plain_number 1).bind fun _ => (plain_number 4).bind fun _ => (plain_number 4).bind fun _ =>
      plain_blob.bind fun _ => plain_pure _

theorem plain_root : Plain root :=
  plain_word.bind fun _ => plain_word.bind fun _ => plain_pure _

theorem plain_thread : Plain thread :=
  plain_word.bind fun _ => plain_word.bind fun _ => (plain_list plain_word).bind fun _ =>
    plain_pure _

/-- What a reader complains about, the end of its input apart. -/
def Refuses (r : Reader α) (F : ReadError → List UInt8 → Prop) : Prop :=
  ∀ input e, e ≠ .truncated → (r input = .error e ↔ F e input)

theorem Plain.refuses {r : Reader α} (plain : Plain r) : Refuses r fun _ _ => False :=
  fun input e other => iff_of_false (fun failed => other (plain input e failed)) id

theorem Refuses.bind {r : Reader α} {T : α → Prop} {w : α → Written} {f : α → Reader β}
    {F : ReadError → List UInt8 → Prop} {G : α → ReadError → List UInt8 → Prop}
    (head : ReadsWithin r T w) (first : Refuses r F) (second : ∀ a, T a → Refuses (f a) (G a)) :
    Refuses (r >>= f) fun e input =>
      F e input ∨ ∃ a mid, T a ∧ (w a).Opens input mid ∧ G a e mid := by
  intro input e other
  rw [bind_eq_error_iff, first input e other]
  refine or_congr_right ⟨?_, ?_⟩
  · rintro ⟨a, mid, taken, failed⟩
    obtain ⟨inside, opens⟩ := (head _ _ _).1 taken
    exact ⟨a, mid, inside, opens, (second a inside _ _ other).1 failed⟩
  · rintro ⟨a, mid, inside, opens, failed⟩
    exact ⟨a, mid, (head _ _ _).2 ⟨inside, opens⟩, (second a inside _ _ other).2 failed⟩

theorem Refuses.behind {r : Reader α} {T : α → Prop} {w : α → Written} {f : α → Reader β}
    {G : α → ReadError → List UInt8 → Prop} (head : ReadsWithin r T w) (plain : Plain r)
    (second : ∀ a, T a → Refuses (f a) (G a)) :
    Refuses (r >>= f) fun e input => ∃ a mid, T a ∧ (w a).Opens input mid ∧ G a e mid :=
  fun input e other =>
    (Refuses.bind head plain.refuses second input e other).trans (or_iff_right id)

theorem Refuses.before {r : Reader α} {f : α → Reader β} {F : ReadError → List UInt8 → Prop}
    (first : Refuses r F) (plain : ∀ a, Plain (f a)) : Refuses (r >>= f) F := by
  intro input e other
  rw [bind_eq_error_iff, first input e other]
  exact or_iff_left fun ⟨a, mid, _, failed⟩ => other (plain a _ _ failed)

theorem refuses_expect [DecidableEq α] {field : Reader α} {S : α → Prop} {w : α → Written}
    (reads : ReadsWithin field S w) (plain : Plain field) (a : α) (complaint : ReadError) :
    Refuses (expect field a complaint) fun e input =>
      e = complaint ∧ ∃ b rest, S b ∧ b ≠ a ∧ (w b).Opens input rest := by
  intro input e other
  unfold expect
  rw [bind_eq_error_iff, or_iff_right fun failed => other (plain _ _ failed)]
  constructor
  · rintro ⟨b, rest, taken, failed⟩
    obtain ⟨inside, opens⟩ := (reads _ _ _).1 taken
    by_cases same : b = a
    · rw [if_pos same] at failed
      cases failed
    · rw [if_neg same] at failed
      exact ⟨(Except.error.inj failed).symm, b, rest, inside, same, opens⟩
  · rintro ⟨rfl, b, rest, inside, differs, opens⟩
    exact ⟨b, rest, (reads _ _ _).2 ⟨inside, opens⟩, by rw [if_neg differs]; rfl⟩

theorem refuses_name : Refuses name fun e input => e = .badTypeName ∧
    ∃ bs rest, ¬ (ByteArray.mk bs.toArray).IsValidUTF8 ∧ (Written.blob bs).Opens input rest := by
  intro input e other
  unfold name
  rw [bind_eq_error_iff, or_iff_right fun failed => other (plain_blob _ _ failed)]
  constructor
  · rintro ⟨bs, rest, taken, failed⟩
    obtain ⟨-, opens⟩ := (reads_blob _ _ _).1 taken
    cases text : String.fromUTF8? ⟨bs.toArray⟩ with
    | some s =>
      rw [text] at failed
      cases failed
    | none =>
      rw [text] at failed
      exact ⟨(Except.error.inj failed).symm, bs, rest, fromUTF8?_eq_none_iff.1 text, opens⟩
  · rintro ⟨rfl, bs, rest, invalid, opens⟩
    refine ⟨bs, rest, (reads_blob _ _ _).2 ⟨trivial, opens⟩, ?_⟩
    rw [fromUTF8?_eq_none_iff.2 invalid]
    rfl

theorem refuses_type : Refuses type fun e input => ∃ identity mid,
    (Written.number 8 (UInt64.toNat identity)).Opens input mid ∧ e = .badTypeName ∧
      ∃ bs rest, ¬ (ByteArray.mk bs.toArray).IsValidUTF8 ∧ (Written.blob bs).Opens mid rest := by
  have behind (name : String) (identity : UInt64) : Plain <| number 4 >>= fun mapOffset =>
      list word >>= fun pointerMap => pure (TypeImage.mk identity name mapOffset pointerMap) :=
    (plain_number 4).bind fun _ => (plain_list plain_word).bind fun _ => plain_pure _
  rw [type_eq]
  intro input e other
  simpa only [true_and] using Refuses.behind reads_word plain_word (fun identity _ =>
    refuses_name.before fun name => behind name identity) input e other

theorem refuses_many {record : Reader α} {w : α → Written} {F : ReadError → List UInt8 → Prop}
    (reads : Reads record w) (refuses : Refuses record F) (n : Nat) :
    Refuses (many record n) fun e input => ∃ (as : List α) (mid : List UInt8),
      as.length < n ∧ (Written.concat (as.map w)).Opens input mid ∧ F e mid := by
  intro input e other
  induction n generalizing input with
  | zero =>
    refine iff_of_false ?_ ?_
    · rintro ⟨⟩
    · rintro ⟨as, mid, few, -⟩
      exact absurd few (Nat.not_lt_zero _)
  | succ n ih =>
    change (record >>= fun a => many record n >>= fun as => pure (a :: as)) input = _ ↔ _
    rw [bind_eq_error_iff, refuses input e other]
    constructor
    · rintro (here | ⟨a, mid, first, failed⟩)
      · exact ⟨[], input, Nat.succ_pos n, Written.opens_nothing.2 rfl, here⟩
      · obtain failed | ⟨as, _, -, impossible⟩ := bind_eq_error_iff.1 failed
        · obtain ⟨as, mid', few, opens, there⟩ := (ih mid).1 failed
          exact ⟨a :: as, mid', Nat.succ_lt_succ few,
            Written.opens_append.2 ⟨mid, ((reads _ _ _).1 first).2, opens⟩, there⟩
        · cases impossible
    · rintro ⟨as, mid', few, opens, there⟩
      cases as with
      | nil => exact .inl (Written.opens_nothing.1 opens ▸ there)
      | cons a as =>
        obtain ⟨mid, first, others⟩ := Written.opens_append.1 opens
        exact .inr ⟨a, mid, (reads _ _ _).2 ⟨trivial, first⟩, bind_eq_error_iff.2
          (.inl ((ih mid).2 ⟨as, mid', Nat.lt_of_succ_lt_succ few, others, there⟩))⟩

theorem refuses_list {record : Reader α} {w : α → Written} {F : ReadError → List UInt8 → Prop}
    (reads : Reads record w) (refuses : Refuses record F) :
    Refuses (list record) fun e input => ∃ announced mid, (Written.count announced).Opens input mid ∧
      ∃ (as : List α) (mid' : List UInt8),
        as.length < announced ∧ (Written.concat (as.map w)).Opens mid mid' ∧ F e mid' := by
  intro input e other
  have chain := Refuses.behind reads_count (plain_number 4) (fun announced _ =>
    refuses_many reads refuses announced) input e other
  exact chain.trans (by simp only [true_and])

end Reader

namespace HeapDump

open Written Reader

/-- A dump as it is written, up to the name of one of its types: all before the types, the number of
types that are announced, those types that are before the one, its identity and its name. -/
def encodeUpToName (d : HeapDump) (announced : Nat) (identity : UInt64) (name : List UInt8) :
    Written :=
  concat [⟨dumpMagic, true⟩, number 2 dumpVersion, number 2 d.flags.toNat,
    list PageRecord.encode d.pages, list encodeRoot d.roots, list ThreadImage.encode d.threads,
    count announced, concat (d.types.map TypeImage.encode), number 8 identity.toNat, blob name]

/-- The complaints about an input for what one of its fields holds. The field is there in full, and
all before it is as in a dump. -/
inductive Spoils : ReadError → List UInt8 → Prop
  | magic (field rest : List UInt8) (whole : field.length = 4) (other : field ≠ dumpMagic) :
    Spoils .badMagic (field ++ rest)
  | version (n : Nat) (rest : List UInt8) (fits : n < UInt16.size) (other : n ≠ dumpVersion) :
    Spoils .unsupportedVersion (dumpMagic ++ ((number 2 n).bytes ++ rest))
  | name (d : HeapDump) (announced : Nat) (identity : UInt64) (name input rest : List UInt8)
    (due : d.types.length < announced)
    (opens : (d.encodeUpToName announced identity name).Opens input rest)
    (notText : ¬ (ByteArray.mk name.toArray).IsValidUTF8) :
    Spoils .badTypeName input

theorem Spoils.more {e : ReadError} {input : List UInt8} (spoils : Spoils e input)
    (more : List UInt8) : Spoils e (input ++ more) := by
  cases spoils with
  | magic field rest whole other =>
    rw [List.append_assoc]
    exact .magic field _ whole other
  | version n rest fits other =>
    simp only [List.append_assoc]
    exact .version n _ fits other
  | name d announced identity name _ rest due opens notText =>
    exact .name d announced identity name _ _ due (opens.more more) notText

theorem refuses_dump : Refuses dump Spoils := by
  have version : 1 <<< (8 * 2) = UInt16.size := rfl
  have chain := Refuses.bind (reads_expect (readsWithin_bytes 4) rfl .badMagic)
    (refuses_expect (readsWithin_bytes 4) (plain_bytes 4) dumpMagic .badMagic) fun _ _ =>
    Refuses.bind (reads_expect (readsWithin_number version) (by decide) .unsupportedVersion)
      (refuses_expect (readsWithin_number version) (plain_number 2) dumpVersion .unsupportedVersion)
      fun _ _ => Refuses.behind (readsWithin_number version) (plain_number 2) fun flags _ =>
    Refuses.behind (reads_list reads_page) (plain_list plain_page) fun pages _ =>
    Refuses.behind (reads_list reads_root) (plain_list plain_root) fun roots _ =>
    Refuses.behind (reads_list reads_thread) (plain_list plain_thread) fun threads _ =>
    (refuses_list reads_type refuses_type).before fun types => plain_pure (HeapDump.mk
      (.ofNat flags) pages roots threads types)
  intro input e other
  rw [dump_eq, chain input e other]
  constructor
  · rintro (⟨rfl, field, rest, whole, differs, -, rfl⟩ | ⟨-, _, -, ⟨-, rfl⟩, ⟨rfl, n, rest, fits,
      differs, -, rfl⟩ | ⟨-, _, -, first, flags, _, small, second, pages, _, -, third, roots, _, -,
      fourth, threads, _, -, fifth, announced, _, sixth, types, _, due, seventh, identity, _,
      eighth, rfl, name, rest, notText, ninth⟩⟩)
    · exact .magic field rest whole differs
    · exact .version n rest fits differs
    · refine .name { flags := .ofNat flags, pages, roots, threads, types } announced identity name _
        rest due ?_ notText
      simp only [encodeUpToName, concat, opens_append, opens_nothing,
        UInt16.toNat_ofNat_of_lt' small]
      exact ⟨_, ⟨rfl, rfl⟩, _, first, _, second, _, third, _, fourth, _, fifth, _, sixth, _,
        seventh, _, eighth, _, ninth, rfl⟩
  · intro spoils
    cases spoils with
    | magic field rest whole differs =>
      exact .inl ⟨rfl, field, rest, whole, differs, rfl, rfl⟩
    | version n rest fits differs =>
      exact .inr ⟨(), _, trivial, ⟨rfl, rfl⟩, .inl ⟨rfl, n, rest, fits, differs, rfl, rfl⟩⟩
    | name d announced identity name _ rest due opens notText =>
      simp only [encodeUpToName, concat, opens_append, opens_nothing] at opens
      obtain ⟨_, magic, _, first, _, second, _, third, _, fourth, _, fifth, _, sixth, _, seventh, _,
        eighth, _, ninth, rfl⟩ := opens
      exact .inr ⟨(), _, trivial, magic, .inr ⟨(), _, trivial, first, d.flags.toNat, _,
        d.flags.toNat_lt, second, d.pages, _, trivial, third, d.roots, _, trivial, fourth,
        d.threads, _, trivial, fifth, announced, _, sixth, d.types, _, due, seventh, identity, _,
        eighth, rfl, name, _, notText, ninth⟩⟩

structure IsJudged (input : List UInt8) : Prop where
  accepted : ∀ d rest, decode input = .ok (d, rest) ↔ (encode d).Opens input rest
  unique : ∀ d d' rest rest', (encode d).Opens input rest → (encode d').Opens input rest' →
    d = d' ∧ rest = rest'
  cut : ∀ d missing, missing ≠ [] → (encode d).Opens (input ++ missing) [] →
    decode input = .error .truncated
  refused : ∀ e, e ≠ .truncated → (decode input = .error e ↔ Spoils e input)
  truncated : decode input = .error .truncated ↔
    (¬ ∃ d rest, (encode d).Opens input rest) ∧ ∀ e, ¬ Spoils e input

theorem decode_eq_ok_iff {input rest : List UInt8} {d : HeapDump} :
    decode input = .ok (d, rest) ↔ d.encode.Opens input rest :=
  (reads_dump input d rest).trans (and_iff_right trivial)

theorem Spoils.ne_truncated {e : ReadError} {input : List UInt8} (spoils : Spoils e input) :
    e ≠ .truncated := by
  rintro rfl
  cases spoils

theorem Spoils.decode_eq {e : ReadError} {input : List UInt8} (spoils : Spoils e input) :
    decode input = .error e :=
  (refuses_dump input e spoils.ne_truncated).2 spoils

theorem opens_unique {input rest rest' : List UInt8} {d d' : HeapDump}
    (opens : d.encode.Opens input rest) (opens' : d'.encode.Opens input rest') :
    d = d' ∧ rest = rest' :=
  Prod.mk.inj (Except.ok.inj ((decode_eq_ok_iff.2 opens).symm.trans (decode_eq_ok_iff.2 opens')))

/-- What is read of an input is read of it with more behind it, so the input was not cut short. -/
theorem decode_cut {input missing : List UInt8} {d : HeapDump} (lacks : missing ≠ [])
    (opens : d.encode.Opens (input ++ missing) []) : decode input = .error .truncated := by
  cases answer : decode input with
  | ok found =>
    obtain ⟨d', rest⟩ := found
    have same := (opens_unique opens ((decode_eq_ok_iff.1 answer).more missing)).2
    exact absurd (List.append_eq_nil_iff.1 same.symm).2 lacks
  | error e =>
    by_cases early : e = .truncated
    · rw [early]
    · have spoils := ((refuses_dump input e early).1 answer).more missing
      have impossible := spoils.decode_eq.symm.trans (decode_eq_ok_iff.2 opens)
      cases impossible

/-- **The reader of dumps accepts what begins with a dump and nothing else.** The dump and what is
behind it are determined by the input. An input that lacks the end of a dump has come to its end too
soon; a complaint about content is made exactly where a field that must hold one value holds another
or a name that must be text is none, with all before it as in a dump; and all else has come to its
end too soon. -/
theorem decode_judges (input : List UInt8) : IsJudged input where
  accepted d rest := decode_eq_ok_iff
  unique d d' rest rest' := opens_unique
  cut d missing := decode_cut
  refused := refuses_dump input
  truncated := by
    constructor
    · intro failed
      refine ⟨?_, ?_⟩
      · rintro ⟨d, rest, opens⟩
        have impossible := failed.symm.trans (decode_eq_ok_iff.2 opens)
        cases impossible
      · intro e spoils
        exact spoils.ne_truncated (Except.error.inj (spoils.decode_eq.symm.trans failed))
    · rintro ⟨noDump, unspoilt⟩
      cases answer : decode input with
      | ok found => exact absurd ⟨_, _, decode_eq_ok_iff.1 answer⟩ noDump
      | error e =>
        by_cases early : e = .truncated
        · rw [early]
        · exact absurd ((refuses_dump input e early).1 answer) (unspoilt e)

example : decode (dumpMagic ++ [2]) = .error .truncated := by decide

end HeapDump
end MarkSweep
