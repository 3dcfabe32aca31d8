import MarkSweep.Proofs.CollectionExactness

set_option autoImplicit false

namespace MarkSweep

structure Arena.Fresh (a : Arena) (size : Nat) (kind : BlockKind) (block : Block) : Prop where
  aligned : 16 ∣ block.addr
  large : size ≤ block.size
  held : a.Holds block
  paged : ∃ s ∈ a.slabs, s.page.kind.contents = kind ∧ s.page.base ≤ block.addr ∧
    block.addr + block.size ≤ s.page.limit
  alone : ∀ c, a.Holds c → c ≠ block → ∀ x, block.Contains x → ¬ c.Contains x
  blank : ∀ x, block.Contains x → a.read x = 0

theorem Arena.Takes.fresh {a b : Arena} {size blockSize : Nat} {kind : BlockKind} {block : Block}
    (takes : a.Takes kind blockSize block b) (sound : b.Sound) (large : size ≤ blockSize) :
    b.Fresh size kind block := by
  have fits := takes.size_eq
  have held := (takes.holds_iff block).2 (.inr rfl)
  obtain ⟨i, t, k, there, allocated, rfl, kinded, blank⟩ := takes.exists_slab
  have cut := (slab_sound sound there).cut
  exact
    { aligned := Page.dvd_blockAddr cut k
      large := fits ▸ large
      held := held
      paged := ⟨t, Array.mem_of_getElem? there, kinded, Page.base_le_blockAddr t.page k,
        Page.blockAddr_add_le cut (Slab.isAllocated_iff.1 allocated).1⟩
      alone := fun c other different x inside inside' =>
        different (eq_of_contains sound other held inside' inside)
      blank := fun x inside =>
        (read_of_contains sound there allocated inside).trans (blank x inside) }

namespace Heap

section Allocations

variable {env : Embedding} {h h' : Heap} {caller : Option Caller} {size : Nat} {kind : BlockKind}

theorem maybeCollect_spec {result : Outcome Bool}
    (checked : h.maybeCollect env caller = (result, h')) (trusted : env.IsSound)
    (sound : h.arena.Sound) :
    (h.parkedBy caller).SameRoots (h'.parkedBy caller) ∧
      ∀ b, (h.parkedBy caller).Retained env.toSurroundings b → h.arena.Carries h'.arena b := by
  obtain ⟨-, rfl⟩ | ⟨collected, collecting, -⟩ := maybeCollect_cases checked
  · exact ⟨⟨rfl, rfl, rfl⟩, fun b _ => Arena.carries_of_clearMarks_eq rfl b⟩
  · obtain ⟨same, carries, -⟩ := collect_spec collecting trusted sound
    exact ⟨same, carries⟩

theorem sameRoots_allocateNow {host : Host} {result : Except Error Block}
    (asked : h.allocateNow host size kind = (result, h')) :
    (h.parkedBy caller).SameRoots (h'.parkedBy caller) := by
  obtain ⟨b, stats, -, rfl⟩ := allocateNow_cases asked
  cases caller <;> exact ⟨rfl, rfl, rfl⟩

theorem carries_of_refused {host : Host} {e : Error}
    (asked : h.allocateNow host size kind = (.error e, h')) (aligned : host.IsAligned)
    (sound : h.arena.Sound) (b : Block) : h.arena.Carries h'.arena b := by
  obtain ⟨a, stats, asking, rfl⟩ := allocateNow_cases asked
  obtain ⟨-, ⟨-, kept⟩ | ⟨block, blockSize, given, -⟩⟩ := Arena.allocate_spec sound aligned asking
  · exact kept.carries b
  · simp at given

theorem fresh_of_granted {host : Host} {block : Block}
    (asked : h.allocateNow host size kind = (.ok block, h')) (aligned : host.IsAligned)
    (sound : h.arena.Sound) :
    h'.arena.Fresh size kind block ∧ ¬ h.arena.Holds block ∧
      ∀ b, h.arena.Carries h'.arena b := by
  obtain ⟨a, stats, asking, rfl⟩ := allocateNow_cases asked
  obtain ⟨whole, ⟨⟨e, given⟩, -⟩ | ⟨block', blockSize, given, large, takes⟩⟩ :=
    Arena.allocate_spec sound aligned asking
  · simp at given
  · obtain rfl := Except.ok.inj given
    exact ⟨takes.fresh whole large, takes.not_holds, takes.carries⟩

/-- Before the arena grants a request, at most collections have happened. -/
theorem exists_granting {block : Block}
    (done : h.allocate env caller size kind = (.done block, h')) (trusted : env.IsSound)
    (sound : h.arena.Sound) :
    ∃ (host : Host) (g : Heap), host.IsAligned ∧ g.arena.Sound ∧
      (∀ b, (h.parkedBy caller).Retained env.toSurroundings b → h.arena.Carries g.arena b) ∧
      g.allocateNow host size kind = (.ok block, h') := by
  have granted : ∀ {result : Except Error Block}, .done block = Outcome.ofExcept result →
      result = .ok block := by
    intro result same
    cases result with
    | error e => cases same
    | ok b =>
      cases same
      rfl
  have whole := arena_parkedBy h caller ▸ sound
  generalize hr : Outcome.done block = outcome at done
  cases allocates_of_allocate done with
  | stuck checked nothing => exact absurd hr.symm (nothing block)
  | @answered due g _ result checked asked =>
    obtain rfl := granted hr
    obtain ⟨-, carries⟩ := maybeCollect_spec checked trusted sound
    exact ⟨env.host, g, trusted.1.1, sound_maybeCollect checked trusted sound, carries, asked⟩
  | stuckAgain _ _ _ nothing => exact absurd hr.symm (nothing block)
  | @answeredAgain due h₁ h₂ g _ e report result checked asked collecting askedAgain =>
    obtain rfl := granted hr
    obtain ⟨same, carries⟩ := maybeCollect_spec checked trusted sound
    have sound₁ := sound_maybeCollect checked trusted sound
    have refused := carries_of_refused asked trusted.1.1 sound₁
    have sound₂ := sound_allocateNow asked trusted.1.1 sound₁
    obtain ⟨-, carries', -⟩ := collect_spec collecting trusted sound₂
    have sound₃ := sound_collect collecting trusted sound₂
    refine ⟨env.hostAgain, g, trusted.2.1.1, sound₃, fun b retained => ?_, askedAgain⟩
    have both : ∀ c, (h.parkedBy caller).Retained env.toSurroundings c →
        h.arena.Carries h₂.arena c :=
      fun c there => (carries c there).trans (refused c)
    refine (both b retained).trans (carries' b ?_)
    refine retained.carried whole (same.trans (sameRoots_allocateNow asked)) fun c there => ?_
    rw [arena_parkedBy, arena_parkedBy]
    exact both c there

/-- An allocation that is done returns a fresh block, and every block that is retained when the
caller has parked is still there, is another one, and reads as before. -/
theorem fresh_of_allocate {config : Config} (run : Reachable config h)
    (admitted : h.Admits (.allocate env caller size kind)) {block : Block}
    (done : h.allocate env caller size kind = (.done block, h')) :
    h'.arena.Fresh size kind block ∧
      ∀ b, (h.parkedBy caller).Retained env.toSurroundings b →
        h'.arena.Holds b ∧ b ≠ block ∧ ∀ x, b.Contains x → h'.arena.read x = h.arena.read x := by
  have sound := run.sound
  obtain ⟨host, g, aligned, whole, carries, asked⟩ := exists_granting done admitted.1 sound
  obtain ⟨fresh, new, others⟩ := fresh_of_granted asked aligned whole
  refine ⟨fresh, fun b retained => ?_⟩
  have held := retained.holds
  rw [arena_parkedBy] at held
  have before := carries b retained
  have after := before.trans (others b)
  refine ⟨after.holds held, ?_, fun x inside => ?_⟩
  · rintro rfl
    exact new (before.holds held)
  · exact after.read_eq sound (sound_allocateNow asked aligned whole) held inside

theorem fresh_of_allocate_sample :
    Reachable (.testing 0) (sample.setFlags { forceMajor := true }) ∧
      (sample.setFlags { forceMajor := true }).Admits
        (.allocate .sample (some sampleCaller) 4096 .typed) ∧
      sample.arena.blockAround? 77824 = some ⟨77824, 4096⟩ ∧
      ∃ h', (sample.setFlags { forceMajor := true }).allocate .sample (some sampleCaller)
          4096 .typed = (.done ⟨77824, 4096⟩, h') ∧
        h'.arena.Fresh 4096 .typed ⟨77824, 4096⟩ ∧
        ∀ b, ((sample.setFlags { forceMajor := true }).parkedBy (some sampleCaller)).Retained
            Embedding.sample.toSurroundings b →
          h'.arena.Holds b ∧ b ≠ ⟨77824, 4096⟩ ∧
            ∀ x, b.Contains x → h'.arena.read x = sample.arena.read x := by
  have run : Reachable (.testing 0) (sample.setFlags { forceMajor := true }) :=
    .perform (.setFlags { forceMajor := true }) reachable_sample trivial
  have admitted : (sample.setFlags { forceMajor := true }).Admits
      (.allocate .sample (some sampleCaller) 4096 .typed) := by
    refine ⟨Embedding.isSound_sample, ?_⟩
    rintro c ⟨⟩
    exact hasCaller_sample
  have done : ((sample.setFlags { forceMajor := true }).allocate .sample
      (some sampleCaller) 4096 .typed).1 = .done ⟨77824, 4096⟩ := by
    decide +kernel
  obtain ⟨fresh, kept⟩ := fresh_of_allocate run admitted (Prod.ext done rfl)
  exact ⟨run, admitted, by decide +kernel, _, Prod.ext done rfl, fresh, kept⟩

end Allocations

end Heap

end MarkSweep
