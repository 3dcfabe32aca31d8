import MarkSweep.Proofs.RetainedBlocks

set_option autoImplicit false

namespace MarkSweep

namespace Threads

theorem modify_modify (t : Threads) (id : RecordId) (f g : ThreadRecord → ThreadRecord) :
    (t.modify id f).modify id g = t.modify id fun r => g (f r) := by
  unfold modify
  congr 1
  refine Array.ext_getElem? fun j => ?_
  simp only [Array.getElem?_modify]
  by_cases same : id = j
  · rw [if_pos same, if_pos same, if_pos same, Option.map_map]
    rfl
  · rw [if_neg same, if_neg same, if_neg same]

theorem modify_congr {t : Threads} {id : RecordId} {f g : ThreadRecord → ThreadRecord}
    (same : ∀ r, t.record? id = some r → f r = g r) : t.modify id f = t.modify id g := by
  unfold modify
  congr 1
  refine Array.ext_getElem? fun j => ?_
  simp only [Array.getElem?_modify]
  split
  · next here =>
    subst here
    exact Option.map_congr fun r found => same r found
  · rfl

theorem park_unpark_park (t : Threads) (id : RecordId) (now : Snapshot) :
    ((t.park id now).unpark id).2.park id now = t.park id now := by
  have parked : (t.park id now).record? id = (t.record? id).map (·.park now) := by
    simp [record?, park, modify, Array.getElem?_modify]
  unfold unpark
  rw [parked]
  cases found : t.record? id with
  | none =>
    refine (modify_modify t id _ _).trans (modify_congr fun r there => ?_)
    simp [found] at there
  | some r =>
    have deep : r.depth + 1 ≠ 0 := Nat.succ_ne_zero _
    simp only [Option.map_some, ThreadRecord.unpark, ThreadRecord.park, if_neg deep]
    refine (modify_modify _ id _ _).trans ((modify_modify t id _ _).trans ?_)
    refine modify_congr fun r' there => ?_
    obtain rfl := Option.some.inj (found.symm.trans there)
    simp only [ThreadRecord.park, Nat.add_sub_cancel]
    split <;> rfl

end Threads

namespace Arena

theorem not_marks_clearMarks (a : Arena) (x : Addr) : ¬ a.clearMarks.Marks x := by
  rintro ⟨i, k, -, bit⟩
  unfold markBit at bit
  rw [getElem?_slabs_clearMarks] at bit
  cases found : a.slabs[i]? with
  | none => simp [found] at bit
  | some s => simp [found, Bitmap.get_clear] at bit

theorem carries_of_clearMarks_eq {a b : Arena} (same : b.clearMarks = a.clearMarks) (c : Block) :
    a.Carries b c := by
  intro i s k found allocated _
  obtain ⟨marks, there, -⟩ := exists_marks_congr same found
  exact ⟨i, _, there, rfl, allocated, fun _ _ => rfl⟩

end Arena

namespace Heap

theorem sameRoots_resumedBy {h g : Heap} {caller : Option Caller}
    (same : (h.parkedBy caller).SameRoots g) :
    g.SameRoots ((g.resumedBy caller).parkedBy caller) := by
  cases caller with
  | none => exact ⟨rfl, rfl, rfl⟩
  | some c =>
    refine ⟨rfl, ?_, rfl⟩
    change ((g.threads.unpark c.record).2).park c.record c.now = g.threads
    rw [same.threads]
    exact Threads.park_unpark_park h.threads c.record c.now

/-- Marks have no part in what is retained. -/
theorem retained_congr {around : Surroundings} {h h' : Heap} (sound : h.arena.Sound)
    (same : h.SameRoots h') (arena : h'.arena.clearMarks = h.arena.clearMarks) (b : Block) :
    h'.Retained around b ↔ h.Retained around b := by
  constructor
  · intro retained
    refine retained.carried (Arena.sound_congr arena sound) same.symm fun c _ => ?_
    exact Arena.carries_of_clearMarks_eq arena.symm c
  · intro retained
    refine retained.carried sound same fun c _ => ?_
    exact Arena.carries_of_clearMarks_eq arena c

section Collections

variable {env : Embedding} {h h' : Heap}

theorem sameRoots_mark {result : Except Error MarkReport} (marking : h.mark env = (result, h')) :
    h.SameRoots h' := by
  obtain ⟨m, -, rfl⟩ := mark_cases marking
  exact ⟨rfl, rfl, rfl⟩

theorem marks_iff_retained {report : MarkReport} (marking : h.mark env = (.ok report, h'))
    (trusted : env.IsSound) (sound : h.arena.Sound) {b : Block} (held : h.arena.Holds b) :
    h'.arena.Marks b.addr ↔ h.Retained env.toSurroundings b := by
  obtain ⟨m, phase, rfl⟩ := mark_cases marking
  have same : h.arena.clearMarks.clearMarks = h.arena.clearMarks :=
    Arena.clearMarks_clearMarks _
  have blank := Arena.sound_congr same sound
  have held' := (Arena.holds_congr same b).2 held
  obtain ⟨scanned, marks⟩ := Marker.marks_iff_of_markPhaseBy blank
    (Arena.not_marks_clearMarks h.arena) trusted.2.2.1 trusted.2.2.2 rfl phase
  have reached := @retained_iff_reached env.toSurroundings
    { h with arena := h.arena.clearMarks } blank scanned b held'
  have congr := @retained_congr env.toSurroundings h { h with arena := h.arena.clearMarks } sound
    ⟨rfl, rfl, rfl⟩ same b
  rw [marks b.addr (Arena.starts_iff_holds.2 ⟨b, held', rfl⟩)]
  exact reached.symm.trans congr

/-- However a collection ends, it carries the retained blocks along and leaves roots and threads
as they are. If it finishes, there are no other blocks. -/
theorem Collects.spec {result : Outcome (Option (CollectionReport × Unit))}
    (ended : h.Collects env Bystanders.none result h') (trusted : env.IsSound)
    (sound : h.arena.Sound) :
    h.SameRoots h' ∧
      (∀ b, h.Retained env.toSurroundings b → h.arena.Carries h'.arena b) ∧
      ∀ report, result = .done (some report) →
        ∀ b, h'.arena.Holds b ↔ h.arena.Holds b ∧ h.Retained env.toSurroundings b := by
  cases ended with
  | waits =>
    exact ⟨⟨rfl, rfl, rfl⟩, fun b _ => Arena.carries_of_clearMarks_eq rfl b, nofun⟩
  | abandoned p =>
    exact ⟨⟨rfl, rfl, rfl⟩, fun b _ => Arena.carries_of_clearMarks_eq rfl b, nofun⟩
  | failed p marking =>
    have same := clearMarks_mark trusted marking
    obtain ⟨roots, threads, handles⟩ := sameRoots_mark marking
    exact ⟨⟨roots, threads, handles⟩, fun b _ => Arena.carries_of_clearMarks_eq same b, nofun⟩
  | @finished p mark a f g marking meeting =>
    obtain ⟨-, rfl⟩ := Prod.mk.inj meeting
    have same := clearMarks_mark trusted marking
    change f.arena.clearMarks = h.arena.clearMarks at same
    obtain ⟨roots, threads, handles⟩ := sameRoots_mark marking
    have sound' := Arena.sound_congr same sound
    have marks : ∀ b, h.arena.Holds b →
        (f.arena.Marks b.addr ↔ h.Retained env.toSurroundings b) := by
      intro b held
      refine (marks_iff_retained marking trusted sound held).trans ?_
      have stopped : h.SameRoots (h.stoppedAt Bystanders.none.whileStopping p) := ⟨rfl, rfl, rfl⟩
      exact retained_congr sound stopped rfl b
    refine ⟨⟨roots, threads, handles⟩, fun b retained => ?_, fun report _ b => ?_⟩
    · refine (Arena.carries_of_clearMarks_eq same b).trans ?_
      exact Arena.carries_sweep sound' ((marks b retained.holds).2 retained)
    · refine (Arena.holds_sweep sound' b).trans ?_
      rw [Arena.holds_congr same]
      exact and_congr_right (marks b)

theorem collect_spec {caller : Option Caller} {patience : Patience}
    {result : Outcome (Option CollectionReport)}
    (collecting : h.collect env caller patience = (result, h')) (trusted : env.IsSound)
    (sound : h.arena.Sound) :
    (h.parkedBy caller).SameRoots (h'.parkedBy caller) ∧
      (∀ b, (h.parkedBy caller).Retained env.toSurroundings b → h.arena.Carries h'.arena b) ∧
      ∀ report, result = .done (some report) → ∀ b, h'.arena.Holds b ↔
        h.arena.Holds b ∧ (h.parkedBy caller).Retained env.toSurroundings b := by
  obtain ⟨result', among, rfl⟩ := collect_cases collecting
  obtain ⟨rfl, rfl⟩ | ⟨inner, g, ran, rfl, same⟩ := whileParked_cases among
  · exact ⟨⟨rfl, rfl, rfl⟩, fun b _ => Arena.carries_of_clearMarks_eq rfl b, nofun⟩
  · have parked := arena_parkedBy h caller
    rw [← parked] at sound
    obtain ⟨roots, carries, left⟩ := (collects_of_collectParked ran).spec trusted sound
    rw [arena_resumedBy]
    rw [parked] at carries left
    refine ⟨roots.trans (sameRoots_resumedBy roots), carries, fun report done => ?_⟩
    cases result' with
    | waits => simp [Outcome.map] at done
    | failed e => simp [Outcome.map] at done
    | done answer =>
      cases answer with
      | none => simp [Outcome.map] at done
      | some pair => exact left pair (same _ rfl)

/-- A collection that is done has marked with its caller parked and the world stopped, and then
swept. -/
theorem collect_done {caller : Option Caller} {patience : Patience} {report : CollectionReport}
    (collecting : h.collect env caller patience = (.done (some report), h')) :
    ∃ p f, ((h.parkedBy caller).stoppedAt Bystanders.none.whileStopping p).mark env =
        (.ok report.mark, f) ∧
      report.sweep = f.arena.sweep.1 ∧ h'.arena = f.arena.sweep.2 := by
  obtain ⟨result', among, same⟩ := collect_cases collecting
  obtain ⟨rfl, -⟩ | ⟨result, g, ran, rfl, parked⟩ := whileParked_cases among
  · simp [Outcome.map] at same
  · cases result' with
    | waits => simp [Outcome.map] at same
    | failed e => simp [Outcome.map] at same
    | done answer =>
      obtain rfl := parked _ rfl
      cases collects_of_collectParked ran with
      | abandoned p => simp [Outcome.map] at same
      | @finished p mark a f g marking meeting =>
        obtain ⟨-, rfl⟩ := Prod.mk.inj meeting
        obtain rfl := Option.some.inj (Outcome.done.inj same)
        refine ⟨p, f, marking, rfl, ?_⟩
        rw [arena_resumedBy]
        rfl

end Collections

end Heap

end MarkSweep
