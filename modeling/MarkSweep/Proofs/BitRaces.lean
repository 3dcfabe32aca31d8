import MarkSweep.Bitmap.Race
import MarkSweep.Proofs.SetBits
import Mathlib.Data.Finset.Card

set_option autoImplicit false

/-!
# Races have one winner for each bit

A thread may see a bit clear and come too late: between its look and its exchange any other thread
may set the bit. The exchange tells what the bit was, so whatever the threads saw before, the one
whose exchange comes first has set the bit and all others learn that they have not. The words hold
sixty-four bits each, but an exchange leaves all of them but one as they are.
-/

namespace MarkSweep

namespace Race

def put (k : Nat) (racer : Racer) (r : Race) : Race :=
  { r with racers := r.racers.setIfInBounds k racer }

/-- What one access of a thread to the word of its next bit can do. -/
inductive Access (r : Race) (k : Nat) (racer : Racer) (bit : Nat) (todo : List Nat) : Race → Prop
  | finds (fresh : racer.looked = false) (isSet : r.bitmap.get bit = true) :
      Access r k racer bit todo (r.put k { todo, results := racer.results ++ [(bit, false)] })
  | looks (fresh : racer.looked = false) (isClear : r.bitmap.get bit = false) :
      Access r k racer bit todo (r.put k { racer with todo := bit :: todo, looked := true })
  | exchanges (looked : racer.looked = true) :
      Access r k racer bit todo (put k
        { todo, results := racer.results ++ [(bit, !r.bitmap.get bit)] }
        { r with bitmap := r.bitmap.set bit })

section Steps

variable {r s : Race} {k : Nat}

theorem access_of_step (taken : r.step k = some s) : ∃ racer bit todo,
    r.racers[k]? = some racer ∧ racer.todo = bit :: todo ∧ r.Access k racer bit todo s := by
  unfold step at taken
  rw [Option.bind_eq_bind, Option.bind_eq_some_iff] at taken
  obtain ⟨racer, found, taken⟩ := taken
  cases due : racer.todo with
  | nil => simp [due] at taken
  | cons bit todo =>
    refine ⟨racer, bit, todo, found, due, ?_⟩
    rw [due] at taken
    cases looked : racer.looked with
    | true =>
      simp only [looked] at taken
      obtain rfl := Option.some.inj taken
      exact .exchanges looked
    | false =>
      cases seen : r.bitmap.get bit with
      | true =>
        simp only [looked, seen] at taken
        obtain rfl := Option.some.inj taken
        exact .finds looked seen
      | false =>
        simp only [looked, seen] at taken
        obtain rfl := Option.some.inj taken
        exact .looks looked seen

theorem isSome_step {racer : Racer} (found : r.racers[k]? = some racer) (due : racer.todo ≠ []) :
    (r.step k).isSome = true := by
  obtain ⟨bit, todo, cons⟩ := List.exists_cons_of_ne_nil due
  unfold step
  simp only [found, cons, Option.bind_eq_bind, Option.bind_some]
  split <;> rfl

theorem left_put {racer t : Racer} (found : r.racers[k]? = some racer) (less : t.left < racer.left) :
    (r.put k t).left < r.left := by
  have found' : r.racers.toList[k]? = some racer := by rwa [Array.getElem?_toList]
  have sum := total_set Racer.left found' t
  unfold left put
  rw [Array.toList_setIfInBounds]
  omega

theorem left_lt_of_step (taken : r.step k = some s) : s.left < r.left := by
  obtain ⟨racer, bit, todo, found, due, access⟩ := access_of_step taken
  have before : racer.left = 2 * (todo.length + 1) - racer.looked.toNat := by
    rw [Racer.left, due, List.length_cons]
  cases access with
  | finds fresh _ =>
    refine left_put found ?_
    rw [before, fresh]
    change 2 * todo.length - 0 < 2 * (todo.length + 1) - 0
    omega
  | looks fresh _ =>
    refine left_put found ?_
    rw [before, fresh]
    change 2 * (todo.length + 1) - 1 < 2 * (todo.length + 1) - 0
    omega
  | exchanges looked =>
    refine left_put (r := { r with bitmap := r.bitmap.set bit }) found ?_
    rw [before, looked]
    change 2 * todo.length - 0 < 2 * (todo.length + 1) - 1
    omega

theorem results_put {racer t : Racer} {more : List (Nat × Bool)} (found : r.racers[k]? = some racer)
    (grown : t.results = racer.results ++ more) : (r.put k t).results.Perm (r.results ++ more) := by
  obtain ⟨bound, here⟩ := List.getElem?_eq_some_iff.1
    (show r.racers.toList[k]? = some racer by rwa [Array.getElem?_toList])
  have whole : r.racers.toList =
      r.racers.toList.take k ++ racer :: r.racers.toList.drop (k + 1) := by
    rw [← here, List.getElem_cons_drop, List.take_append_drop]
  unfold results put
  rw [Array.toList_setIfInBounds, List.set_eq_take_append_cons_drop, if_pos bound]
  conv => rhs; rw [whole]
  simp only [List.flatMap_append, List.flatMap_cons, grown, List.append_assoc]
  refine List.Perm.append_left _ (List.Perm.append_left _ ?_)
  exact List.perm_append_comm

theorem calls_put {racer t : Racer} (found : r.racers[k]? = some racer)
    (same : t.calls = racer.calls) :
    (r.put k t).racers.toList.map Racer.calls = r.racers.toList.map Racer.calls := by
  obtain ⟨bound, here⟩ := List.getElem?_eq_some_iff.1
    (show (r.racers.toList.map Racer.calls)[k]? = some racer.calls by simp [found])
  unfold put
  rw [Array.toList_setIfInBounds, List.map_set, same, ← here, List.set_getElem_self]

end Steps

/-- Whether the bits that are set are those that a thread says it has set, each said once. -/
structure Recorded (size : Nat) (tasks : List (List Nat)) (r : Race) : Prop where
  size : r.bitmap.size = size
  calls : r.racers.toList.map Racer.calls = tasks
  seen : ∀ {i won}, (i, won) ∈ r.results → r.bitmap.get i = true
  winners : ∀ i, r.results.count (i, true) = (r.bitmap.get i).toNat

section Recorded

variable {size : Nat} {tasks : List (List Nat)} {r s : Race} {k : Nat}

theorem recorded_start (size : Nat) (tasks : List (List Nat)) :
    (start size tasks).Recorded size tasks := by
  have silent : (start size tasks).results = [] := by
    simp [results, start]
  constructor
  · rfl
  · simp [start, Racer.calls, Function.comp_def]
  · intro i won mem
    simp [silent] at mem
  · intro i
    have clear : (start size tasks).bitmap.get i = false := Bitmap.get_empty size i
    rw [silent, clear]
    rfl

theorem Recorded.mem_tasks (recorded : r.Recorded size tasks) {racer : Racer}
    (found : r.racers[k]? = some racer) {i : Nat} (called : i ∈ racer.calls) :
    i ∈ tasks.flatten := by
  rw [← recorded.calls, List.mem_flatten]
  refine ⟨racer.calls, List.mem_map_of_mem ?_, called⟩
  exact Array.mem_toList_iff.2 (Array.mem_of_getElem? found)

theorem Recorded.mem_tasks_of_results (recorded : r.Recorded size tasks) {i : Nat} {won : Bool}
    (answered : (i, won) ∈ r.results) : i ∈ tasks.flatten := by
  obtain ⟨racer, mem, answered⟩ := List.mem_flatMap.1 answered
  obtain ⟨k, found⟩ := Array.getElem?_of_mem (Array.mem_toList_iff.1 mem)
  refine recorded.mem_tasks found (List.mem_append_left _ ?_)
  exact List.mem_map_of_mem (f := (·.1)) answered

/-- The first exchange for a bit is told that it was clear, all others that it was set. -/
theorem recorded_step (inside : ∀ i ∈ tasks.flatten, i < size) (recorded : r.Recorded size tasks)
    (taken : r.step k = some s) : s.Recorded size tasks := by
  obtain ⟨racer, bit, todo, found, due, access⟩ := access_of_step taken
  cases access with
  | finds fresh isSet =>
    have reports := results_put (t := ⟨todo, false, racer.results ++ [(bit, false)]⟩) found rfl
    constructor
    · exact recorded.size
    · rw [calls_put found (by simp [Racer.calls, due]), recorded.calls]
    · intro i won mem
      rcases List.mem_append.1 (reports.mem_iff.1 mem) with old | new
      · exact recorded.seen old
      · obtain ⟨rfl, -⟩ := Prod.mk.inj (List.mem_singleton.1 new)
        exact isSet
    · intro i
      rw [reports.count_eq, List.count_append, recorded.winners i]
      simp [put]
  | looks fresh isClear =>
    have reports := results_put (t := ⟨bit :: todo, true, racer.results⟩) found
      (List.append_nil racer.results).symm
    rw [List.append_nil] at reports
    constructor
    · exact recorded.size
    · rw [calls_put found (by simp [Racer.calls, due]), recorded.calls]
    · intro i won mem
      exact recorded.seen (reports.mem_iff.1 mem)
    · intro i
      rw [reports.count_eq, recorded.winners i]
      rfl
  | exchanges looked =>
    have bound : bit < r.bitmap.size := by
      rw [recorded.size]
      exact inside bit (recorded.mem_tasks found (by simp [Racer.calls, due]))
    have reports := results_put (r := { r with bitmap := r.bitmap.set bit })
      (t := ⟨todo, false, racer.results ++ [(bit, !r.bitmap.get bit)]⟩) found rfl
    constructor
    · exact (Bitmap.size_set _ _).trans recorded.size
    · rw [calls_put (r := { r with bitmap := r.bitmap.set bit }) found
        (by simp [Racer.calls, due]), recorded.calls]
    · intro i won mem
      change (r.bitmap.set bit).get i = true
      rw [Bitmap.get_set _ bound]
      rcases List.mem_append.1 (reports.mem_iff.1 mem) with old | new
      · simp [recorded.seen old]
      · obtain ⟨rfl, -⟩ := Prod.mk.inj (List.mem_singleton.1 new)
        simp
    · intro i
      have before := recorded.winners i
      rw [reports.count_eq, List.count_append]
      change r.results.count (i, true) + _ = ((r.bitmap.set bit).get i).toNat
      rw [before, Bitmap.get_set _ bound, List.count_singleton]
      by_cases same : bit = i
      · subst same
        cases r.bitmap.get bit <;> simp
      · simp [same]

theorem Reachable.recorded (inside : ∀ i ∈ tasks.flatten, i < size) (run : Reachable size tasks r) :
    r.Recorded size tasks := by
  induction run with
  | start => exact recorded_start size tasks
  | step k before taken ih => exact recorded_step inside ih taken

theorem Recorded.get_iff (recorded : r.Recorded size tasks) {i : Nat} :
    r.bitmap.get i = true ↔ (i, true) ∈ r.results := by
  rw [← List.count_pos_iff, recorded.winners i]
  cases r.bitmap.get i <;> simp

theorem Recorded.lt_of_get (inside : ∀ i ∈ tasks.flatten, i < size)
    (recorded : r.Recorded size tasks) {i : Nat} (isSet : r.bitmap.get i = true) : i < size :=
  inside i (recorded.mem_tasks_of_results (recorded.get_iff.1 isSet))

theorem Recorded.answers (recorded : r.Recorded size tasks) (ended : r.isOver = true) :
    r.racers.toList.map (fun racer => racer.results.map (·.1)) = tasks := by
  rw [← recorded.calls]
  refine List.map_congr_left fun racer mem => ?_
  have done : racer.todo = [] := by simpa using List.all_eq_true.1 ended racer mem
  rw [Racer.calls, done, List.append_nil]

theorem Recorded.get_iff_of_isOver (recorded : r.Recorded size tasks) (ended : r.isOver = true)
    (i : Nat) : r.bitmap.get i = true ↔ i ∈ tasks.flatten := by
  constructor
  · intro isSet
    exact recorded.mem_tasks_of_results (recorded.get_iff.1 isSet)
  · rw [← recorded.answers ended]
    intro asked
    obtain ⟨_, ofRacer, answered⟩ := List.mem_flatten.1 asked
    obtain ⟨racer, present, rfl⟩ := List.mem_map.1 ofRacer
    obtain ⟨⟨_, won⟩, reported, rfl⟩ := List.mem_map.1 answered
    exact recorded.seen (List.mem_flatMap.2 ⟨racer, present, reported⟩)

end Recorded

structure Decided (tasks : List (List Nat)) (r : Race) : Prop where
  answers : r.racers.toList.map (fun racer => racer.results.map (·.1)) = tasks
  winner : ∀ i, r.results.count (i, true) = if i ∈ tasks.flatten then 1 else 0
  get_iff : ∀ i, r.bitmap.get i = true ↔ i ∈ tasks.flatten
  count : r.bitmap.count = tasks.flatten.toFinset.card
  ones : r.bitmap.setBits.length = tasks.flatten.toFinset.card

structure IsFair (size : Nat) (tasks : List (List Nat)) (r : Race) : Prop where
  calls : r.racers.toList.map Racer.calls = tasks
  winner : ∀ i, r.results.count (i, true) = if r.bitmap.get i then 1 else 0
  loser : ∀ i, (i, false) ∈ r.results → r.bitmap.get i = true
  others : ∀ k s, r.step k = some s → ∀ i, s.bitmap.get i ≠ r.bitmap.get i →
    ∃ racer, r.racers[k]? = some racer ∧ racer.todo.head? = some i
  proceeds : ∀ k racer, r.racers[k]? = some racer → racer.todo ≠ [] → ∃ s, r.step k = some s
  ends : ∀ k s, r.step k = some s → s.left < r.left
  unpadded : ∀ k w j, r.bitmap.words[k]? = some w → Word.bit w j = true → 64 * k + j < size
  decided : r.isOver = true → r.Decided tasks
  again : ∀ later, r.again later = start size later

section Recorded

variable {size : Nat} {tasks : List (List Nat)} {r s : Race} {k : Nat}

theorem card_of_get_iff {b : Bitmap} (unpadded : ∀ i, b.get i = true → i < b.size) {l : List Nat}
    (same : ∀ i, b.get i = true ↔ i ∈ l) : b.members.length = l.toFinset.card := by
  have distinct : b.members.Nodup := List.nodup_range.filter _
  rw [← List.toFinset_card_of_nodup distinct]
  congr 1
  ext i
  rw [List.mem_toFinset, List.mem_toFinset, Bitmap.mem_members, ← same i]
  exact and_iff_right_of_imp (unpadded i)

theorem Recorded.decided (inside : ∀ i ∈ tasks.flatten, i < size) (recorded : r.Recorded size tasks)
    (ended : r.isOver = true) : r.Decided tasks := by
  have get_iff := recorded.get_iff_of_isOver ended
  have unpadded : ∀ i, r.bitmap.get i = true → i < r.bitmap.size := by
    intro i isSet
    rw [recorded.size]
    exact recorded.lt_of_get inside isSet
  constructor
  · exact recorded.answers ended
  · intro i
    rw [recorded.winners i]
    by_cases asked : i ∈ tasks.flatten
    · rw [(get_iff i).2 asked, if_pos asked]
      rfl
    · rw [if_neg asked, Bool.toNat_eq_zero, Bool.eq_false_iff]
      exact fun isSet => asked ((get_iff i).1 isSet)
  · exact get_iff
  · rw [Bitmap.count_eq_length_members]
    exact card_of_get_iff unpadded get_iff
  · rw [Bitmap.setBits_eq_members unpadded]
    exact card_of_get_iff unpadded get_iff

theorem changed_of_step (taken : r.step k = some s) {i : Nat}
    (changed : s.bitmap.get i ≠ r.bitmap.get i) :
    ∃ racer, r.racers[k]? = some racer ∧ racer.todo.head? = some i := by
  obtain ⟨racer, bit, todo, found, due, access⟩ := access_of_step taken
  refine ⟨racer, found, ?_⟩
  rw [due, List.head?_cons]
  cases access with
  | finds fresh isSet => exact absurd rfl changed
  | looks fresh isClear => exact absurd rfl changed
  | exchanges looked =>
    change (r.bitmap.set bit).get i ≠ r.bitmap.get i at changed
    by_cases bound : bit < r.bitmap.size
    · rw [Bitmap.get_set _ bound] at changed
      by_cases same : bit = i
      · rw [same]
      · simp [same] at changed
    · rw [Bitmap.set_of_size_le _ (by omega)] at changed
      exact absurd rfl changed

end Recorded

/-- **Races for bits are fair**: whatever threads call for whatever bits of a clear bitmap, and
however their accesses interleave, every bit called for is set by exactly one call. -/
theorem fair_of_reachable {size : Nat} {tasks : List (List Nat)} {r : Race}
    (inside : ∀ todo ∈ tasks, ∀ i ∈ todo, i < size) (run : Reachable size tasks r) :
    r.IsFair size tasks := by
  have inside' : ∀ i ∈ tasks.flatten, i < size := by
    intro i asked
    obtain ⟨todo, mem, asked⟩ := List.mem_flatten.1 asked
    exact inside todo mem i asked
  have recorded := run.recorded inside'
  constructor
  · exact recorded.calls
  · intro i
    rw [recorded.winners i]
    cases r.bitmap.get i <;> rfl
  · exact fun i answered => recorded.seen answered
  · exact fun k s taken i changed => changed_of_step taken changed
  · intro k racer found due
    exact Option.isSome_iff_exists.1 (isSome_step found due)
  · exact fun k s taken => left_lt_of_step taken
  · intro k w j found isSet
    have small : j < 64 := by
      apply Nat.lt_of_not_le
      intro large
      simp [Word.bit_eq_false_of_le w large] at isSet
    have quotient : (64 * k + j) / 64 = k := by omega
    have rest : (64 * k + j) % 64 = j := by omega
    refine recorded.lt_of_get inside' ?_
    rwa [Bitmap.get, quotient, rest, Bitmap.word, Array.getD_eq_getD_getElem?, found,
      Option.getD_some]
  · exact recorded.decided inside'
  · intro later
    unfold again
    rw [recorded.size, Bitmap.clear, recorded.size]
    rfl

def play (turns : List Nat) (r : Race) : Option Race := turns.foldlM (fun r k => r.step k) r

theorem Reachable.play {size : Nat} {tasks : List (List Nat)} {r s : Race}
    (run : Reachable size tasks r) {turns : List Nat} (played : r.play turns = some s) :
    Reachable size tasks s := by
  induction turns generalizing r with
  | nil =>
    obtain rfl := Option.some.inj played
    exact run
  | cons k turns ih =>
    obtain ⟨next, taken, rest⟩ := Option.bind_eq_some_iff.1 played
    exact ih (run.step k taken) rest

/-- Both threads see bit 65 clear before either sets it. Only one of them is told that it did, and
the bit beside it in the same word is set by the other one. -/
theorem fair_of_reachable_contested :
    let tasks := [[65, 1, 65], [65, 64]]
    (∀ todo ∈ tasks, ∀ i ∈ todo, i < 66) ∧
      ∃ r, (start 66 tasks).play [0, 1, 1, 0, 1, 0, 0, 1, 0] = some r ∧ Reachable 66 tasks r ∧
        r.IsFair 66 tasks ∧ r.isOver = true ∧
        r.results = [(65, false), (1, true), (65, false), (65, true), (64, true)] ∧
        r.bitmap.count = 3 := by
  intro tasks
  have inside : ∀ todo ∈ tasks, ∀ i ∈ todo, i < 66 := by decide
  have played : ∃ r, (start 66 tasks).play [0, 1, 1, 0, 1, 0, 0, 1, 0] = some r ∧
      r.isOver = true ∧
      r.results = [(65, false), (1, true), (65, false), (65, true), (64, true)] ∧
      r.bitmap.count = 3 := by
    decide +kernel
  obtain ⟨r, played, ended, results, count⟩ := played
  have run : Reachable 66 tasks r := Reachable.start.play played
  exact ⟨inside, r, played, run, fair_of_reachable inside run, ended, results, count⟩

end Race

end MarkSweep
