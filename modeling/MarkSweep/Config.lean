import MarkSweep.Error

set_option autoImplicit false

namespace MarkSweep

/-- Bytes in a directory granule: the size of a regular page and the alignment of every page. -/
def granule : Nat := 65536

structure Flags where
  forceMajor : Bool := false
  noMark : Bool := false
  profile : Bool := false
deriving DecidableEq, Repr, Inhabited

namespace Flags

def ofBits (bits : Nat) : Flags where
  forceMajor := bits.testBit 0
  noMark := bits.testBit 1
  profile := bits.testBit 2

def bits (f : Flags) : Nat :=
  f.forceMajor.toNat + 2 * f.noMark.toNat + 4 * f.profile.toNat

def names (f : Flags) : List String :=
  (if f.forceMajor then ["FORCE_MAJOR"] else []) ++ (if f.noMark then ["NO_MARK"] else []) ++
    (if f.profile then ["PROFILE"] else [])

def text (f : Flags) : String :=
  match f.names with
  | [] => "GcFlags(0x0)"
  | names => "GcFlags(" ++ " | ".intercalate names ++ ")"

theorem ofBits_bits (f : Flags) : ofBits f.bits = f := by
  obtain ⟨a, b, c⟩ := f
  cases a <;> cases b <;> cases c <;> rfl

theorem bits_ofBits (n : Nat) : (ofBits n).bits = n % 8 := by
  have below : ∀ m < 8, (ofBits m).bits = m := by decide
  have same : ∀ i < 3, (n % 2 ^ 3).testBit i = n.testBit i := fun i hi => by
    rw [Nat.testBit_mod_two_pow, decide_eq_true hi, Bool.true_and]
  rw [← below (n % 8) (Nat.mod_lt _ (by decide))]
  simp [ofBits, bits, ← same]

end Flags

structure Config where
  markThreads : Nat
  dispatchInterval : Nat := 64
  minDispatch : Nat := 32
  markThreshold : Float := 0.2
  triggerFloor : Nat := 1024 * 1024
  heapLimit : Nat := 0
  hugeThreshold : Nat := 4096
  stopWarning : Nat := 100
  flags : Flags := {}
deriving Inhabited

def maxMarkThreads : Nat := 63

inductive ConfigError
  | tooManyMarkThreads (count : Nat)
  | invalidThreshold
  | invalidHugeThreshold (bytes : Nat)
  | invalidDispatchInterval
  | invalidVariable (key value : String)
deriving DecidableEq, Repr

def ConfigError.message : ConfigError → String
  | tooManyMarkThreads count => s!"at most 63 marker threads are supported, got {count}"
  | invalidThreshold => "mark threshold must be a positive finite ratio"
  | invalidHugeThreshold bytes =>
    s!"huge threshold must be a power of two between 16 bytes and half a page, got {bytes}"
  | invalidDispatchInterval => "dispatch interval must be at least 1"
  | invalidVariable key value => s!"invalid value {Text.quote value} for {key}"

namespace Config

def standard (processors : Nat) : Config where
  markThreads := min (processors - 1) 4

def serial : Config where
  markThreads := 0

def testing (markThreads : Nat) : Config where
  markThreads := markThreads
  dispatchInterval := 8
  minDispatch := 4
  flags := { noMark := true }

def validHugeThreshold (bytes : Nat) : Bool :=
  bytes ∈ (List.range 12).map fun k => 16 <<< k

def check (c : Config) : Except ConfigError Unit :=
  if maxMarkThreads < c.markThreads then .error (.tooManyMarkThreads c.markThreads)
  else if !(0 < c.markThreshold && c.markThreshold.isFinite) then .error .invalidThreshold
  else if !validHugeThreshold c.hugeThreshold then .error (.invalidHugeThreshold c.hugeThreshold)
  else if c.dispatchInterval = 0 then .error .invalidDispatchInterval
  else .ok ()

theorem validHugeThreshold_iff {bytes : Nat} :
    validHugeThreshold bytes = true ↔ bytes.isPowerOfTwo ∧ 16 ≤ bytes ∧ bytes ≤ granule / 2 := by
  have shift : ∀ k, 16 <<< k = 2 ^ (k + 4) := fun k => by
    rw [Nat.shiftLeft_eq, Nat.pow_add, Nat.mul_comm]
  simp only [validHugeThreshold, decide_eq_true_eq, List.mem_map, List.mem_range, granule, shift]
  constructor
  · rintro ⟨k, hk, rfl⟩
    refine ⟨⟨k + 4, rfl⟩, ?_, ?_⟩
    · exact Nat.pow_le_pow_right (n := 2) (by decide) (show 4 ≤ k + 4 by omega)
    · exact Nat.pow_le_pow_right (n := 2) (by decide) (show k + 4 ≤ 15 by omega)
  · rintro ⟨⟨k, rfl⟩, low, high⟩
    have h4 : 4 ≤ k := (Nat.pow_le_pow_iff_right (by decide)).1 (show 2 ^ 4 ≤ 2 ^ k from low)
    have h15 : k ≤ 15 := (Nat.pow_le_pow_iff_right (by decide)).1 (show 2 ^ k ≤ 2 ^ 15 from high)
    exact ⟨k - 4, by omega, by rw [Nat.sub_add_cancel h4]⟩

end Config

end MarkSweep
