import MarkSweep.Proofs.RetainedBlocks
import MarkSweep.Proofs.SetBits

set_option autoImplicit false

namespace MarkSweep

namespace Bitmap

theorem size_foldl_set {ι : Type} (entry : ι → Nat) (l : List ι) (b : Bitmap) :
    (l.foldl (fun b x => b.set (entry x)) b).size = b.size := by
  induction l generalizing b with
  | nil => rfl
  | cons x l ih => rw [List.foldl_cons, ih, size_set]

theorem get_foldl_set {ι : Type} (entry : ι → Nat) {l : List ι} {b : Bitmap}
    (inside : ∀ x ∈ l, entry x < b.size) (i : Nat) :
    (l.foldl (fun b x => b.set (entry x)) b).get i = true ↔
      b.get i = true ∨ ∃ x ∈ l, entry x = i := by
  induction l generalizing b with
  | nil => simp
  | cons x l ih =>
    obtain ⟨here, later⟩ := List.forall_mem_cons.1 inside
    rw [List.foldl_cons, ih fun y member => (later y member).trans_eq (size_set b _).symm,
      get_set b here]
    simp [or_assoc]

@[simp] theorem size_ofFlags (flags : List Bool) : (ofFlags flags).size = flags.length := by
  rw [ofFlags, size_foldl_set, size_empty]

theorem get_ofFlags {flags : List Bool} {i : Nat} :
    (ofFlags flags).get i = true ↔ flags[i]? = some true := by
  have inside : ∀ f ∈ flags.zipIdx.filter (·.1), f.2 < (empty flags.length).size := by
    intro f member
    obtain ⟨bound, -⟩ := List.getElem?_eq_some_iff.1
      (List.mk_mem_zipIdx_iff_getElem?.1 (List.mem_filter.1 member).1)
    exact bound
  rw [ofFlags, get_foldl_set _ inside, get_empty]
  simp only [Bool.false_eq_true, false_or, List.mem_filter, Prod.exists,
    List.mk_mem_zipIdx_iff_getElem?]
  constructor
  · rintro ⟨flag, _, ⟨found, isSet⟩, rfl⟩
    rwa [isSet] at found
  · intro found
    exact ⟨true, i, ⟨found, rfl⟩, rfl⟩

theorem lt_size_of_get_ofFlags {flags : List Bool} {i : Nat}
    (isSet : (ofFlags flags).get i = true) : i < (ofFlags flags).size := by
  rw [size_ofFlags]
  obtain ⟨bound, -⟩ := List.getElem?_eq_some_iff.1 (get_ofFlags.1 isSet)
  exact bound

end Bitmap

namespace TypeLayout

variable {name : String} {offset : Nat} {flags : List Bool}

theorem isReference_ofFlags {word : Nat} :
    (ofFlags name offset flags).IsReference word ↔
      ∃ i, flags[i]? = some true ∧ word = offset + i := by
  unfold IsReference ofFlags
  constructor
  · rintro ⟨low, -, isSet⟩
    exact ⟨word - offset, Bitmap.get_ofFlags.1 isSet, (Nat.add_sub_of_le low).symm⟩
  · rintro ⟨i, found, rfl⟩
    rw [Nat.add_sub_cancel_left]
    have isSet := Bitmap.get_ofFlags.2 found
    exact ⟨Nat.le_add_right _ _, Bitmap.lt_size_of_get_ofFlags isSet, isSet⟩

theorem pairwise_pointerWords (t : TypeLayout) (blockWords : Nat) :
    (t.pointerWords blockWords).Pairwise (· < ·) := by
  refine List.Pairwise.sublist (List.takeWhile_sublist _) ?_
  rw [List.pairwise_map]
  exact (List.pairwise_lt_range.filter _).imp fun h => Nat.add_lt_add_left h _

/-- An entry that is moved up in machine arithmetic is moved up, where the whole map fits. -/
theorem toNat_move {i : Nat} (fits : offset + wordsFor flags.length * 64 < UInt64.size)
    (bound : i < flags.length) : (UInt64.ofNat i + UInt64.ofNat offset).toNat = offset + i := by
  have inside : flags.length ≤ wordsFor flags.length * 64 := by
    unfold wordsFor
    lia
  have small : offset + i < UInt64.size := by lia
  rw [UInt64.toNat_add, UInt64.toNat_ofNat_of_lt' (by lia), UInt64.toNat_ofNat_of_lt' (by lia),
    Nat.mod_eq_of_lt (by rwa [Nat.add_comm]), Nat.add_comm]

theorem toNat_scanOrder (fits : offset + wordsFor flags.length * 64 < UInt64.size)
    (blockWords : UInt64) :
    ((ofFlags name offset flags).scanOrder blockWords).map UInt64.toNat =
      (ofFlags name offset flags).pointerWords blockWords.toNat := by
  have entries : ((ofFlags name offset flags).pointerMap.setBits.map fun i =>
        (UInt64.ofNat i + UInt64.ofNat offset).toNat) =
      (ofFlags name offset flags).pointerMap.members.map (offset + ·) := by
    have unpadded : (Bitmap.ofFlags flags).setBits = (Bitmap.ofFlags flags).members :=
      Bitmap.setBits_eq_members fun _ => Bitmap.lt_size_of_get_ofFlags
    rw [ofFlags, unpadded]
    refine List.map_congr_left fun i member => ?_
    have bound := (Bitmap.mem_members.1 member).1
    rw [Bitmap.size_ofFlags] at bound
    exact toNat_move fits bound
  have below : ((fun w : Nat => decide (w < blockWords.toNat)) ∘ UInt64.toNat) =
      fun w => decide (w < blockWords) :=
    funext fun w => decide_eq_decide.2 UInt64.lt_iff_toNat_lt.symm
  calc ((ofFlags name offset flags).scanOrder blockWords).map UInt64.toNat
      = (((ofFlags name offset flags).pointerMap.setBits.map fun i =>
          UInt64.ofNat i + UInt64.ofNat offset).map UInt64.toNat).takeWhile
            (· < blockWords.toNat) := by rw [List.takeWhile_map, below]; rfl
    _ = _ := by rw [List.map_map]; exact congrArg _ entries

/-- From the flags and back: what a scan of a block gives are the words whose flag is set and that
lie inside the block, in increasing order and each once. The first word is none of them. -/
theorem scanOrder_ofFlags (name : String) (flags : List Bool) (later : 1 ≤ offset)
    (fits : offset + wordsFor flags.length * 64 < UInt64.size) (blockWords : UInt64) :
    ∃ words, ((ofFlags name offset flags).scanOrder blockWords).map UInt64.toNat = words ∧
      (ofFlags name offset flags).pointerWords blockWords.toNat = words ∧
      words.Pairwise (· < ·) ∧ words.Nodup ∧
      (∀ word, word ∈ words ↔
        (∃ i, flags[i]? = some true ∧ word = offset + i) ∧ word < blockWords.toNat) ∧
      0 ∉ words := by
  have sorted := pairwise_pointerWords (ofFlags name offset flags) blockWords.toNat
  have exactly : ∀ word, word ∈ (ofFlags name offset flags).pointerWords blockWords.toNat ↔
      (∃ i, flags[i]? = some true ∧ word = offset + i) ∧ word < blockWords.toNat := fun word =>
    mem_pointerWords.trans (and_congr_left fun _ => isReference_ofFlags)
  refine ⟨_, toNat_scanOrder fits blockWords, rfl, sorted, sorted.imp Nat.ne_of_lt, exactly, ?_⟩
  intro first
  obtain ⟨⟨i, -, zero⟩, -⟩ := (exactly 0).1 first
  lia

/-- A flag for each of seventy words, the first and the last set, of which a block of sixteen has
the first. -/
theorem scanOrder_object_clipped :
    ((object "Wide" (true :: List.replicate 68 false ++ [true])).scanOrder 80).map UInt64.toNat =
        [1, 70] ∧
      ((object "Wide" (true :: List.replicate 68 false ++ [true])).scanOrder 16).map UInt64.toNat =
        [1] := by
  obtain ⟨_, whole, rfl, -⟩ := scanOrder_ofFlags "Wide" (true :: List.replicate 68 false ++ [true])
    (Nat.le_refl 1) (by decide) 80
  obtain ⟨_, clipped, rfl, -⟩ := scanOrder_ofFlags "Wide"
    (true :: List.replicate 68 false ++ [true]) (Nat.le_refl 1) (by decide) 16
  exact ⟨whole.trans (by decide +kernel), clipped.trans (by decide +kernel)⟩

end TypeLayout

end MarkSweep
