import MarkSweep.Config.Environment
import Mathlib.Data.List.DropRight
import Mathlib.Data.Nat.Digits.Defs
import Mathlib.Tactic.Common

set_option autoImplicit false

namespace MarkSweep

namespace Text

structure IsStripped (s t : List Char) : Prop where
  around : ∃ before after, s = before ++ t ++ after ∧ (∀ c ∈ before, isBlank c = true) ∧
    ∀ c ∈ after, isBlank c = true
  first : ∀ c ∈ t.head?, isBlank c = false
  last : ∀ c ∈ t.getLast?, isBlank c = false

theorem dropWhile_behind {p : Char → Bool} {before rest : List Char}
    (inside : ∀ c ∈ before, p c = true) (first : ∀ c ∈ rest.head?, p c = false) :
    (before ++ rest).dropWhile p = rest := by
  rw [List.dropWhile_append_of_pos inside]
  cases rest with
  | nil => rfl
  | cons c rest => simp [first c rfl]

theorem isStripped_trim (s : List Char) : IsStripped s (trim s) := by
  have front := List.takeWhile_append_dropWhile (p := isBlank) (l := s)
  have back : trim s ++ (s.dropWhile isBlank).rtakeWhile isBlank = s.dropWhile isBlank :=
    List.rdropWhile_append_rtakeWhile
  refine ⟨⟨s.takeWhile isBlank, (s.dropWhile isBlank).rtakeWhile isBlank, ?_,
    fun c mem => List.mem_takeWhile_imp mem, fun c mem => List.mem_rtakeWhile_imp mem⟩, ?_, ?_⟩
  · rw [List.append_assoc, back, front]
  · intro c head
    have head' : (s.dropWhile isBlank).head? = some c := by
      rw [← back, List.head?_append, head]
      rfl
    have notBlank := List.head?_dropWhile_not isBlank s
    rw [head'] at notBlank
    exact notBlank
  · intro c last
    obtain ⟨nonempty, rfl⟩ := List.mem_getLast?_eq_getLast last
    exact Bool.not_eq_true _ |>.mp (List.rdropWhile_last_not isBlank _ nonempty)

theorem trim_of_isStripped {s t : List Char} (h : IsStripped s t) : trim s = t := by
  obtain ⟨before, after, rfl, hbefore, hafter⟩ := h.around
  have hafter' : ∀ c ∈ after.reverse, isBlank c = true := fun c mem =>
    hafter c (List.mem_reverse.mp mem)
  rw [trim, List.append_assoc]
  cases t with
  | nil =>
    -- Here the blanks at the two ends are one run, and the first removal takes it all.
    rw [List.dropWhile_append_of_pos hbefore, List.nil_append, List.dropWhile_eq_nil_iff.mpr hafter]
    rfl
  | cons c rest =>
    have front : (before ++ (c :: rest ++ after)).dropWhile isBlank = c :: rest ++ after :=
      dropWhile_behind hbefore h.first
    have back : (after.reverse ++ (c :: rest).reverse).dropWhile isBlank = (c :: rest).reverse :=
      dropWhile_behind hafter' (by rw [List.head?_reverse]; exact h.last)
    rw [front, List.reverse_append, back, List.reverse_reverse]

theorem isStripped_iff {s t : List Char} : IsStripped s t ↔ trim s = t :=
  ⟨trim_of_isStripped, fun h => h ▸ isStripped_trim s⟩

end Text

/-- Whether a text is a number in decimal digits, of which there is at least one, after an optional
plus sign. -/
def IsNumeral (t : List Char) (n : Nat) : Prop :=
  ∃ sign digits, t = sign ++ digits ∧ (sign = [] ∨ sign = ['+']) ∧ digits ≠ [] ∧
    (∀ c ∈ digits, '0' ≤ c ∧ c ≤ '9') ∧
    n = Nat.ofDigits 10 (digits.reverse.map fun c => c.toNat - '0'.toNat)

def IsCount (t : List Char) (n : Nat) : Prop :=
  IsNumeral t n ∧ n < 2 ^ 64

def IsToggle (t : List Char) (b : Bool) : Prop :=
  ∃ word, t = String.toList word ∧
    (b = true ∧ word ∈ ["1", "true", "on", "yes"] ∨ b = false ∧ word ∈ ["0", "false", "off", "no", ""])

theorem isDigit_iff {c : Char} : c.isDigit = true ↔ '0' ≤ c ∧ c ≤ '9' := by
  simp [Char.isDigit, Char.le_def]

theorem foldl_digits (digits : List Char) :
    digits.foldl (fun n c => n * 10 + (c.toNat - '0'.toNat)) 0 =
      Nat.ofDigits 10 (digits.reverse.map fun c => c.toNat - '0'.toNat) := by
  induction digits using List.reverseRecOn with
  | nil => rfl
  | append_singleton digits c ih =>
    rw [List.foldl_append, ih, List.reverse_append, List.reverse_singleton, List.map_append,
      List.map_singleton, List.singleton_append, Nat.ofDigits_cons]
    simp only [List.foldl_cons, List.foldl_nil]
    lia

/-- A text without its plus sign, if it begins with one. -/
def unsigned : List Char → List Char
  | '+' :: rest => rest
  | t => t

theorem unsigned_of_ne {t : List Char} (noPlus : ∀ rest, t = '+' :: rest → False) : unsigned t = t := by
  unfold unsigned
  split
  · exact absurd rfl (noPlus _)
  · rfl

theorem sign_unsigned (t : List Char) :
    ∃ sign, t = sign ++ unsigned t ∧ (sign = [] ∨ sign = ['+']) := by
  unfold unsigned
  split
  · exact ⟨['+'], rfl, .inr rfl⟩
  · exact ⟨[], rfl, .inl rfl⟩

theorem unsigned_append {sign digits : List Char} (plus : sign = [] ∨ sign = ['+'])
    (inside : ∀ c ∈ digits, '0' ≤ c ∧ c ≤ '9') : unsigned (sign ++ digits) = digits := by
  rcases plus with rfl | rfl
  · rw [List.nil_append]
    unfold unsigned
    split
    · exact absurd (inside '+' List.mem_cons_self) (by decide)
    · rfl
  · rfl

theorem readCount?_eq_some {t : List Char} {n : Nat} :
    readCount? t = some n ↔ unsigned t ≠ [] ∧ (∀ c ∈ unsigned t, '0' ≤ c ∧ c ≤ '9') ∧
      n = Nat.ofDigits 10 ((unsigned t).reverse.map fun c => c.toNat - '0'.toNat) ∧ n < 2 ^ 64 := by
  have size : UInt64.size = 2 ^ 64 := rfl
  have unfolded : readCount? t = if !(unsigned t).isEmpty && (unsigned t).all Char.isDigit &&
      (unsigned t).foldl (fun n c => n * 10 + (c.toNat - '0'.toNat)) 0 < UInt64.size
    then some ((unsigned t).foldl (fun n c => n * 10 + (c.toNat - '0'.toNat)) 0) else none := by
    unfold readCount?
    split
    · rfl
    · next noPlus => rw [unsigned_of_ne noPlus]
  rw [unfolded, size, foldl_digits, Option.ite_none_right_eq_some]
  simp only [Bool.and_eq_true, Bool.not_eq_true', List.isEmpty_eq_false_iff, List.all_eq_true,
    isDigit_iff, decide_eq_true_eq, Option.some.injEq]
  constructor
  · rintro ⟨⟨⟨nonempty, inside⟩, small⟩, rfl⟩
    exact ⟨nonempty, inside, rfl, small⟩
  · rintro ⟨nonempty, inside, rfl, small⟩
    exact ⟨⟨⟨nonempty, inside⟩, small⟩, rfl⟩

theorem readCount?_eq_some_iff {t : List Char} {n : Nat} : readCount? t = some n ↔ IsCount t n := by
  rw [readCount?_eq_some]
  constructor
  · rintro ⟨nonempty, inside, value, small⟩
    obtain ⟨sign, whole, plus⟩ := sign_unsigned t
    exact ⟨⟨sign, unsigned t, whole, plus, nonempty, inside, value⟩, small⟩
  · rintro ⟨⟨sign, digits, rfl, plus, nonempty, inside, value⟩, small⟩
    rw [unsigned_append plus inside]
    exact ⟨nonempty, inside, value, small⟩

example : readCount? "+".toList = none ∧ readCount? "+00063".toList = some 63 ∧
    readCount? "18446744073709551616".toList = none := by decide

theorem readToggle?_eq_some_iff {t : List Char} {b : Bool} : readToggle? t = some b ↔ IsToggle t b := by
  unfold readToggle?
  constructor
  · intro h
    refine ⟨String.ofList t, String.toList_ofList.symm, ?_⟩
    split at h
    · next on => exact .inl ⟨(Option.some.inj h).symm, on⟩
    · split at h
      · next off => exact .inr ⟨(Option.some.inj h).symm, off⟩
      · cases h
  · rintro ⟨word, rfl, ⟨rfl, on⟩ | ⟨rfl, off⟩⟩
    · rw [String.ofList_toList, if_pos on]
    · have apart : ∀ word ∈ ["0", "false", "off", "no", ""], word ∉ ["1", "true", "on", "yes"] := by
        decide
      rw [String.ofList_toList, if_neg (apart word off), if_pos off]

namespace Config

variable {α : Type} {lookup : String → Option String} {key value : String}

/-- Whether a value, the blanks at its ends aside, is a spelling of something. -/
def Spells (grammar : List Char → α → Prop) (value : String) (a : α) : Prop :=
  ∃ t, Text.IsStripped value.toList t ∧ grammar t a

/-- Whether a variable gives a setting. It need not be there, and then gives the usual one. -/
inductive Gives (lookup : String → Option String) (key : String) (grammar : List Char → α → Prop)
    (usual : α) : α → Prop
  | absent (absent : lookup key = none) : Gives lookup key grammar usual usual
  | found {value : String} {a : α} (found : lookup key = some value)
      (spells : Spells grammar value a) : Gives lookup key grammar usual a

def readOrder : List (String × (String → Prop)) := [
  ("PRISM_GC_MARK_THREADS", fun value => ∃ n, Spells IsCount value n),
  ("PRISM_GC_FORCE_MAJOR", fun value => ∃ b, Spells IsToggle value b),
  ("PRISM_GC_NO_MARK", fun value => ∃ b, Spells IsToggle value b),
  ("PRISM_GC_PROFILE", fun value => ∃ b, Spells IsToggle value b)]

def Legible (lookup : String → Option String) (v : String × (String → Prop)) : Prop :=
  ∀ value, lookup v.1 = some value → v.2 value

def overridden (processors threads : Nat) (forceMajor noMark profile : Bool) : Config :=
  { standard processors with
    markThreads := threads
    flags := { forceMajor := forceMajor, noMark := noMark, profile := profile } }

/-- What an environment is to be read as. -/
inductive IsReadAs (processors : Nat) (lookup : String → Option String) :
    Except ConfigError Config → Prop
  | accepted {threads : Nat} {forceMajor noMark profile : Bool}
      (gives₀ : Gives lookup "PRISM_GC_MARK_THREADS" IsCount (standard processors).markThreads threads)
      (gives₁ : Gives lookup "PRISM_GC_FORCE_MAJOR" IsToggle false forceMajor)
      (gives₂ : Gives lookup "PRISM_GC_NO_MARK" IsToggle false noMark)
      (gives₃ : Gives lookup "PRISM_GC_PROFILE" IsToggle false profile)
      (few : threads ≤ 63) :
      IsReadAs processors lookup (.ok (overridden processors threads forceMajor noMark profile))
  | tooMany {value : String} {threads : Nat}
      (found : lookup "PRISM_GC_MARK_THREADS" = some value) (spells : Spells IsCount value threads)
      (legible : ∀ v ∈ readOrder, Legible lookup v) (many : 63 < threads) :
      IsReadAs processors lookup (.error (.tooManyMarkThreads threads))
  | illegible {before after : List (String × (String → Prop))} {key value : String}
      {readable : String → Prop} (split : readOrder = before ++ (key, readable) :: after)
      (legible : ∀ v ∈ before, Legible lookup v) (found : lookup key = some value)
      (unreadable : ¬ readable value) :
      IsReadAs processors lookup (.error (.invalidVariable key value))

section Reading

variable {read? : List Char → Option α} {grammar : List Char → α → Prop}
  (same : ∀ {t a}, read? t = some a ↔ grammar t a)

include same

theorem read?_trim_eq_some_iff {a : α} :
    read? (Text.trim value.toList) = some a ↔ Spells grammar value a := by
  simp only [Spells, Text.isStripped_iff, exists_eq_left', same]

theorem override_of_gives {store : Config → α → Config} {usual a : α} {c : Config}
    {next : Config → Except ConfigError Config} (gives : Gives lookup key grammar usual a)
    (keeps : store c usual = c) : (override lookup key read? store c >>= next) = next (store c a) := by
  cases gives with
  | absent absent =>
    simp only [override, absent, keeps]
    rfl
  | found found spells =>
    simp only [override, found, (read?_trim_eq_some_iff same).mpr spells]
    rfl

theorem override_of_unreadable {store : Config → α → Config} {c : Config}
    {next : Config → Except ConfigError Config} (found : lookup key = some value)
    (unreadable : ¬ ∃ a, Spells grammar value a) :
    (override lookup key read? store c >>= next) = .error (.invalidVariable key value) := by
  cases read : read? (Text.trim value.toList) with
  | none =>
    simp only [override, found, read]
    rfl
  | some a => exact absurd ⟨a, (read?_trim_eq_some_iff same).mp read⟩ unreadable

end Reading

theorem exists_gives {grammar : List Char → α → Prop} (usual : α)
    (legible : Legible lookup (key, fun value => ∃ a, Spells grammar value a)) :
    ∃ a, Gives lookup key grammar usual a := by
  cases found : lookup key with
  | none => exact ⟨usual, .absent found⟩
  | some value =>
    obtain ⟨a, spells⟩ := legible value found
    exact ⟨a, .found found spells⟩

theorem check_overridden (processors threads : Nat) (forceMajor noMark profile : Bool) :
    (overridden processors threads forceMajor noMark profile).check =
      if 63 < threads then .error (.tooManyMarkThreads threads) else .ok () := by
  have positive : (0 : Float) < 0.2 := by decide
  have finite : Float.isFinite 0.2 = true := by decide
  have huge : validHugeThreshold 4096 = true := by decide
  simp [check, overridden, standard, maxMarkThreads, positive, finite, huge]

section Settings

variable {processors threads : Nat} {forceMajor noMark profile : Bool}

theorem ofEnvironment_of_gives
    (gives₀ : Gives lookup "PRISM_GC_MARK_THREADS" IsCount (standard processors).markThreads threads)
    (gives₁ : Gives lookup "PRISM_GC_FORCE_MAJOR" IsToggle false forceMajor)
    (gives₂ : Gives lookup "PRISM_GC_NO_MARK" IsToggle false noMark)
    (gives₃ : Gives lookup "PRISM_GC_PROFILE" IsToggle false profile) :
    ofEnvironment processors lookup =
      if 63 < threads then .error (.tooManyMarkThreads threads)
      else .ok (overridden processors threads forceMajor noMark profile) := by
  rw [ofEnvironment, override_of_gives readCount?_eq_some_iff gives₀,
    override_of_gives readToggle?_eq_some_iff gives₁, override_of_gives readToggle?_eq_some_iff gives₂,
    override_of_gives readToggle?_eq_some_iff gives₃]
  · change ((overridden processors threads forceMajor noMark profile).check >>= fun _ =>
      .ok (overridden processors threads forceMajor noMark profile)) = _
    rw [check_overridden]
    split_ifs <;> rfl
  all_goals rfl

/-- The first variable that cannot be read is reported, whatever those behind it hold. -/
theorem ofEnvironment_of_illegible {before after : List (String × (String → Prop))}
    {readable : String → Prop} (split : readOrder = before ++ (key, readable) :: after)
    (legible : ∀ v ∈ before, Legible lookup v) (found : lookup key = some value)
    (unreadable : ¬ readable value) :
    ofEnvironment processors lookup = .error (.invalidVariable key value) := by
  rw [ofEnvironment]
  -- Variable by variable: the one that cannot be read is this one, or this one can be read.
  obtain _ | ⟨v₀, before⟩ := before
  · obtain ⟨rfl, rfl⟩ := Prod.mk.inj (List.cons.inj split).1
    rw [override_of_unreadable readCount?_eq_some_iff found unreadable]
  obtain ⟨rfl, split₁⟩ := List.cons.inj split
  obtain ⟨legible₀, legible⟩ := List.forall_mem_cons.mp legible
  obtain ⟨threads, gives₀⟩ := exists_gives (standard processors).markThreads legible₀
  rw [override_of_gives readCount?_eq_some_iff gives₀ rfl]
  obtain _ | ⟨v₁, before⟩ := before
  · obtain ⟨rfl, rfl⟩ := Prod.mk.inj (List.cons.inj split₁).1
    rw [override_of_unreadable readToggle?_eq_some_iff found unreadable]
  obtain ⟨rfl, split₂⟩ := List.cons.inj split₁
  obtain ⟨legible₁, legible⟩ := List.forall_mem_cons.mp legible
  obtain ⟨forceMajor, gives₁⟩ := exists_gives false legible₁
  rw [override_of_gives readToggle?_eq_some_iff gives₁ rfl]
  obtain _ | ⟨v₂, before⟩ := before
  · obtain ⟨rfl, rfl⟩ := Prod.mk.inj (List.cons.inj split₂).1
    rw [override_of_unreadable readToggle?_eq_some_iff found unreadable]
  obtain ⟨rfl, split₃⟩ := List.cons.inj split₂
  obtain ⟨legible₂, legible⟩ := List.forall_mem_cons.mp legible
  obtain ⟨noMark, gives₂⟩ := exists_gives false legible₂
  rw [override_of_gives readToggle?_eq_some_iff gives₂ rfl]
  obtain _ | ⟨v₃, before⟩ := before
  · obtain ⟨rfl, rfl⟩ := Prod.mk.inj (List.cons.inj split₃).1
    rw [override_of_unreadable readToggle?_eq_some_iff found unreadable]
  exact absurd (List.cons.inj split₃).2.symm (by simp)

theorem gives_of_legible (usual : Nat) (legible : ∀ v ∈ readOrder, Legible lookup v) :
    (∃ threads, Gives lookup "PRISM_GC_MARK_THREADS" IsCount usual threads) ∧
      ∃ forceMajor noMark profile, Gives lookup "PRISM_GC_FORCE_MAJOR" IsToggle false forceMajor ∧
        Gives lookup "PRISM_GC_NO_MARK" IsToggle false noMark ∧
        Gives lookup "PRISM_GC_PROFILE" IsToggle false profile := by
  obtain ⟨legible₀, legible₁, legible₂, legible₃, -⟩ :
      Legible lookup (_, _) ∧ Legible lookup (_, _) ∧ Legible lookup (_, _) ∧ Legible lookup (_, _) ∧
        ∀ v ∈ [], Legible lookup v := by
    simpa only [readOrder, List.forall_mem_cons] using legible
  obtain ⟨forceMajor, gives₁⟩ := exists_gives false legible₁
  obtain ⟨noMark, gives₂⟩ := exists_gives false legible₂
  obtain ⟨profile, gives₃⟩ := exists_gives false legible₃
  exact ⟨exists_gives usual legible₀, forceMajor, noMark, profile, gives₁, gives₂, gives₃⟩

theorem ofEnvironment_of_isReadAs {result : Except ConfigError Config}
    (h : IsReadAs processors lookup result) : ofEnvironment processors lookup = result := by
  cases h with
  | accepted gives₀ gives₁ gives₂ gives₃ few =>
    rw [ofEnvironment_of_gives gives₀ gives₁ gives₂ gives₃, if_neg (Nat.not_lt.mpr few)]
  | tooMany found spells legible many =>
    obtain ⟨-, forceMajor, noMark, profile, gives₁, gives₂, gives₃⟩ :=
      gives_of_legible (standard processors).markThreads legible
    rw [ofEnvironment_of_gives (.found found spells) gives₁ gives₂ gives₃, if_pos many]
  | illegible split legible found unreadable =>
    exact ofEnvironment_of_illegible split legible found unreadable

theorem exists_isReadAs (processors : Nat) (lookup : String → Option String) :
    ∃ result, IsReadAs processors lookup result := by
  by_cases legible : ∀ v ∈ readOrder, Legible lookup v
  · obtain ⟨⟨threads, gives₀⟩, forceMajor, noMark, profile, gives₁, gives₂, gives₃⟩ :=
      gives_of_legible (standard processors).markThreads legible
    by_cases few : threads ≤ 63
    · exact ⟨_, .accepted gives₀ gives₁ gives₂ gives₃ few⟩
    · cases gives₀ with
      | absent absent => exact absurd ((Nat.min_le_right _ _).trans (by decide)) few
      | found found spells => exact ⟨_, .tooMany found spells legible (Nat.not_le.mp few)⟩
  · -- Of the variables that cannot be read there is a first.
    classical
    obtain ⟨w, hw, illegible⟩ : ∃ w ∈ readOrder, ¬ Legible lookup w := by simpa using legible
    obtain ⟨⟨key, readable⟩, first⟩ := Option.isSome_iff_exists.mp
      (List.find?_isSome (p := fun v => !decide (Legible lookup v)) |>.mpr
        ⟨w, hw, by simpa using illegible⟩)
    obtain ⟨illegible, before, after, split, legible⟩ := List.find?_eq_some_iff_append.mp first
    simp only [Bool.not_not, Bool.not_eq_true', decide_eq_true_eq, decide_eq_false_iff_not]
      at legible illegible
    obtain ⟨value, h⟩ := not_forall.mp illegible
    obtain ⟨found, unreadable⟩ := Classical.not_imp.mp h
    exact ⟨_, .illegible split legible found unreadable⟩

/-- The environment is read as the grammar of its variables says and in no other way, and settings
read from it pass their own check. -/
structure ReadsGrammar (processors : Nat) (lookup : String → Option String) : Prop where
  reads : ∀ result, ofEnvironment processors lookup = result ↔ IsReadAs processors lookup result
  passes : ∀ c, ofEnvironment processors lookup = .ok c → c.check = .ok ()

theorem readsGrammar_ofEnvironment (processors : Nat) (lookup : String → Option String) :
    ReadsGrammar processors lookup := by
  have reads : ∀ result, ofEnvironment processors lookup = result ↔
      IsReadAs processors lookup result := fun result => by
    refine ⟨?_, ofEnvironment_of_isReadAs⟩
    rintro rfl
    obtain ⟨result, h⟩ := exists_isReadAs processors lookup
    rwa [ofEnvironment_of_isReadAs h]
  refine ⟨reads, fun c h => ?_⟩
  cases (reads _).mp h with
  | accepted gives₀ gives₁ gives₂ gives₃ few => rw [check_overridden, if_neg (Nat.not_lt.mpr few)]

end Settings

end Config

end MarkSweep
