import MarkSweep.Proofs.FailedCollections

set_option autoImplicit false

namespace MarkSweep

namespace Written

@[simp] theorem complete_nothing : nothing.complete = true := rfl

@[simp] theorem complete_number (width n : Nat) : (number width n).complete = true := rfl

@[simp] theorem complete_append {v w : Written} :
    (v ++ w).complete = true ↔ v.complete = true ∧ w.complete = true := by
  change (append v w).complete = true ↔ _
  unfold append
  split
  · next whole => exact (and_iff_right whole).symm
  · next cut => exact iff_of_false cut fun both => cut both.1

@[simp] theorem complete_concat {pieces : List Written} :
    (concat pieces).complete = true ↔ ∀ w ∈ pieces, w.complete = true := by
  induction pieces with
  | nil => simp [concat]
  | cons w rest ih => simp [concat, ih]

@[simp] theorem complete_count {n : Nat} : (count n).complete = true ↔ n < UInt32.size := by
  unfold count
  split
  · next fits => exact iff_of_true rfl fits
  · next beyond => exact iff_of_false Bool.false_ne_true beyond

@[simp] theorem complete_blob {bytes : List UInt8} :
    (blob bytes).complete = true ↔ bytes.length < UInt32.size := by
  simp [blob]

@[simp] theorem complete_list {α : Type} {record : α → Written} {items : List α} :
    (list record items).complete = true ↔
      items.length < UInt32.size ∧ ∀ a ∈ items, (record a).complete = true := by
  simp [list]

@[simp] theorem complete_words {ws : List UInt64} :
    (words ws).complete = true ↔ ws.length < UInt32.size := by
  simp [words]

end Written

structure HeapDump.Fits (d : HeapDump) : Prop where
  pages : d.pages.length < UInt32.size
  page : ∀ p ∈ d.pages, p.blockCount < UInt32.size ∧ p.live.length < UInt32.size
  roots : d.roots.length < UInt32.size
  threads : d.threads.length < UInt32.size
  thread : ∀ t ∈ d.threads, t.words.length < UInt32.size
  types : d.types.length < UInt32.size
  type : ∀ t ∈ d.types,
    t.name.toUTF8.size < UInt32.size ∧ t.mapOffset < UInt32.size ∧ t.pointerMap.length < UInt32.size

theorem PageRecord.complete_encode {p : PageRecord} :
    p.encode.complete = true ↔ p.blockCount < UInt32.size ∧ p.live.length < UInt32.size := by
  simp [encode]

theorem complete_encodeRoot (r : UInt64 × UInt64) : (encodeRoot r).complete = true := by
  simp [encodeRoot]

theorem ThreadImage.complete_encode {t : ThreadImage} :
    t.encode.complete = true ↔ t.words.length < UInt32.size := by
  simp [encode]

theorem TypeImage.complete_encode {t : TypeImage} : t.encode.complete = true ↔
    t.name.toUTF8.size < UInt32.size ∧ t.mapOffset < UInt32.size ∧ t.pointerMap.length < UInt32.size := by
  simp only [encode, Written.complete_concat, List.forall_mem_cons, List.not_mem_nil, false_imp_iff,
    implies_true, and_true, Written.complete_number, true_and, Written.complete_blob,
    Written.complete_count, Written.complete_words]
  rfl

theorem HeapDump.complete_encode {d : HeapDump} : d.encode.complete = true ↔ d.Fits := by
  have unfolded : d.encode.complete = true ↔
      (d.pages.length < UInt32.size ∧ ∀ p ∈ d.pages, p.encode.complete = true) ∧
      (d.roots.length < UInt32.size ∧ ∀ r ∈ d.roots, (encodeRoot r).complete = true) ∧
      (d.threads.length < UInt32.size ∧ ∀ t ∈ d.threads, t.encode.complete = true) ∧
      (d.types.length < UInt32.size ∧ ∀ t ∈ d.types, t.encode.complete = true) := by
    simp [encode]
  simp only [unfolded, PageRecord.complete_encode, complete_encodeRoot,
    ThreadImage.complete_encode, TypeImage.complete_encode, implies_true, and_true]
  constructor
  · rintro ⟨⟨pages, page⟩, roots, ⟨threads, thread⟩, types, type⟩
    exact ⟨pages, page, roots, threads, thread, types, type⟩
  · rintro ⟨pages, page, roots, threads, thread, types, type⟩
    exact ⟨⟨pages, page⟩, roots, ⟨threads, thread⟩, types, type⟩

namespace Written

variable {v w : Written} {limit : Option Nat}

theorem send_of_lt {n : Nat} (short : n < w.bytes.length) :
    w.send (some n) = (w.bytes.take n, .error .refused) := if_pos short

theorem send_of_le (room : ∀ n ∈ limit, w.bytes.length ≤ n) :
    w.send limit = (w.bytes, if w.complete then .ok () else .error .tooLong) := by
  cases limit with
  | none => rfl
  | some n => exact if_neg (Nat.not_lt.mpr (room n rfl))

theorem send_of_incomplete (cut : w.complete = false) (room : ∀ n ∈ limit, w.bytes.length ≤ n) :
    w.send limit = (w.bytes, .error .tooLong) := by
  rw [send_of_le room, cut]
  rfl

theorem send_of_complete (whole : w.complete = true) (room : ∀ n ∈ limit, w.bytes.length ≤ n) :
    w.send limit = (w.bytes, .ok ()) := by
  rw [send_of_le room, whole]
  rfl

theorem append_of_complete (whole : v.complete = true) (w : Written) :
    v ++ w = ⟨v.bytes ++ w.bytes, w.complete⟩ := if_pos whole

theorem append_of_incomplete (cut : v.complete = false) (w : Written) : v ++ w = v :=
  if_neg (Bool.not_eq_true _ |>.mpr cut)

theorem send_append_of_lt {n : Nat} (short : n < v.bytes.length) (w : Written) :
    (v ++ w).send (some n) = v.send (some n) := by
  cases whole : v.complete with
  | false => rw [append_of_incomplete whole]
  | true =>
    have longer : n < (v.bytes ++ w.bytes).length := by
      rw [List.length_append]
      exact Nat.lt_add_right _ short
    rw [append_of_complete whole, send_of_lt longer, send_of_lt short,
      List.take_append_of_le_length (Nat.le_of_lt short)]

theorem send_append_of_le (whole : v.complete = true) (room : ∀ n ∈ limit, v.bytes.length ≤ n)
    (w : Written) : (v ++ w).send limit =
      (v.bytes ++ (w.send (limit.map (· - v.bytes.length))).1,
        (w.send (limit.map (· - v.bytes.length))).2) := by
  rw [append_of_complete whole]
  cases limit with
  | none => rfl
  | some n =>
    have enough : v.bytes.length ≤ n := room n rfl
    rw [Option.map_some]
    by_cases short : n - v.bytes.length < w.bytes.length
    · have short' : n < (v.bytes ++ w.bytes).length := by
        rw [List.length_append]
        omega
      rw [send_of_lt short, send_of_lt short', List.take_append, List.take_of_length_le enough]
    · have room' : ∀ m ∈ some (n - v.bytes.length), w.bytes.length ≤ m := by
        rintro m ⟨⟩
        exact Nat.not_lt.mp short
      have room'' : ∀ m ∈ some n, (v.bytes ++ w.bytes).length ≤ m := by
        rintro m ⟨⟩
        rw [List.length_append]
        omega
      rw [send_of_le room', send_of_le room'']

/-- A receiver complains when there is more than it takes, or when something is missing. -/
theorem cases_of_send_eq_error {bytes : List UInt8} {e : DumpError}
    (failed : w.send limit = (bytes, .error e)) : bytes <+: w.bytes ∧
      ((∃ n, limit = some n ∧ bytes.length = n ∧ e = .refused) ∨
        e = .tooLong ∧ w.complete = false) := by
  by_cases room : ∀ n ∈ limit, w.bytes.length ≤ n
  · cases whole : w.complete with
    | true =>
      rw [send_of_complete whole room] at failed
      cases (Prod.mk.inj failed).2
    | false =>
      rw [send_of_incomplete whole room] at failed
      obtain ⟨rfl, complaint⟩ := Prod.mk.inj failed
      exact ⟨List.prefix_rfl, .inr ⟨(Except.error.inj complaint).symm, rfl⟩⟩
  · obtain ⟨n, rfl, short⟩ : ∃ n, limit = some n ∧ n < w.bytes.length := by
      simpa [Option.mem_def] using room
    rw [send_of_lt short] at failed
    obtain ⟨rfl, complaint⟩ := Prod.mk.inj failed
    exact ⟨List.take_prefix _ _, .inl ⟨n, rfl, List.length_take_of_le (Nat.le_of_lt short),
      (Except.error.inj complaint).symm⟩⟩

/-- However a dump is cut into pieces, a receiver that gets them one by one gets what it would get
of the whole, and gives the same answer. -/
theorem sendPieces_eq (pieces : List Written) (limit : Option Nat) :
    sendPieces limit pieces = (concat pieces).send limit := by
  induction pieces generalizing limit with
  | nil =>
    rw [concat, send_of_complete complete_nothing fun n _ => Nat.zero_le n]
    rfl
  | cons v rest ih =>
    rw [sendPieces, concat]
    by_cases room : ∀ n ∈ limit, v.bytes.length ≤ n
    · cases whole : v.complete with
      | false => rw [append_of_incomplete whole, send_of_incomplete whole room]
      | true =>
        rw [send_append_of_le whole room, send_of_complete whole room, ← ih]
    · obtain ⟨n, rfl, short⟩ : ∃ n, limit = some n ∧ n < v.bytes.length := by
        simpa [Option.mem_def] using room
      rw [send_append_of_lt short, send_of_lt short]

end Written

namespace Heap

def atStop (caller : Option Caller) (pollers : List Caller) (h : Heap) : Heap :=
  (h.parkedBy caller).stoppedAt (fun h => pollers.foldl (fun h c => (h.poll c).2) h) {}

def Stops (caller : Option Caller) (pollers : List Caller) (h : Heap) : Prop :=
  (h.atStop caller pollers).threads.allParked = true

instance (caller : Option Caller) (pollers : List Caller) (h : Heap) :
    Decidable (h.Stops caller pollers) :=
  inferInstanceAs (Decidable (_ = true))

def written (env : Embedding) (caller : Option Caller) (pollers : List Caller) (h : Heap) : Written :=
  ((h.atStop caller pollers).image env).encode

/-- Whether a heap has come out of an operation as it went in. -/
structure Untouched (before after : Heap) : Prop where
  whole : before.SameButThreads after
  threads : after.threads.visible = before.threads.visible
  rootValues : ∀ around, after.rootValues around = before.rootValues around
  /-- The safepoint is idle, all threads are as deep in their scopes as before, with the same bound on
  the depths as for a collection, and what is done next gives the same answers. -/
  unscathed : before.Unscathed after

variable {α : Type} {env : Embedding} {caller : Option Caller} {pollers : List Caller}
  {receive : Written → α} {h : Heap}

theorem sameButThreads_atStop (h : Heap) (caller : Option Caller) (pollers : List Caller) :
    h.SameButThreads (h.atStop caller pollers) := by
  have parked : h.SameButThreads
      { h.parkedBy caller with safepoint := (h.parkedBy caller).safepoint.request } := by
    cases caller <;> rfl
  exact (parked.trans (sameButThreads_foldl sameButThreads_poll pollers _)).trans rfl

theorem depth_foldl_poll (stopping : h.safepoint.stopRequested = true) {id : RecordId}
    (inside : h.threads.depth id ≠ 0) (pollers : List Caller) :
    (pollers.foldl (fun h c => (h.poll c).2) h).threads.depth id ≠ 0 := by
  induction pollers generalizing h with
  | nil => exact inside
  | cons c pollers ih =>
    refine ih ?_ ?_
    · rw [Safepoint.stopRequested, phase_poll]
      exact stopping
    · rw [threads_poll stopping]
      split
      · next running =>
        have other : c.record ≠ id := fun same => inside (same ▸ running)
        rw [Threads.park, Threads.depth_modify, if_neg other]
        exact inside
      · exact inside

theorem depth_atStop {c : Caller} (known : (h.threads.record? c.record).isSome = true)
    (pollers : List Caller) : (h.atStop (some c) pollers).threads.depth c.record ≠ 0 := by
  obtain ⟨r, found⟩ := Option.isSome_iff_exists.mp known
  refine depth_foldl_poll (h := { h.enter c with safepoint := (h.enter c).safepoint.request }) rfl ?_
    pollers
  change (h.threads.park c.record c.now).depth c.record ≠ 0
  rw [Threads.park, Threads.depth_modify, if_pos rfl, found]
  simp [ThreadRecord.depth_park]

theorem whileParked_of_done {operation : Heap → Outcome α × Heap} {a : α} {p : Safepoint}
    (known : ∀ c ∈ caller, (h.threads.record? c.record).isSome = true)
    (ran : operation (h.parkedBy caller) =
      (.done a, { h.atStop caller pollers with safepoint := p })) :
    h.whileParked caller operation =
      (.done a, { h.atStop caller pollers with safepoint := p }.resumedBy caller) := by
  cases caller with
  | none => exact ran
  | some c =>
    have inside := depth_atStop (known c rfl) pollers
    have popped := (h.atStop (some c) pollers).threads.fst_unpark c.record
    rw [if_neg inside] at popped
    have left : { h.atStop (some c) pollers with safepoint := p }.unpark c.record =
        (.ok _, { h.atStop (some c) pollers with safepoint := p }.resumedBy (some c)) :=
      Prod.ext popped rfl
    change operation (h.enter c) = _ at ran
    unfold whileParked
    simp only [ran, left]

theorem stopWorld_of_polled (h : Heap) (caller : Option Caller) (pollers : List Caller) :
    ∃ p : Safepoint, (h.parkedBy caller).stopWorld .forever
        (fun h => pollers.foldl (fun h c => (h.poll c).2) h) =
      if (h.atStop caller pollers).threads.allParked then
        (.achieved, { h.atStop caller pollers with safepoint := p })
      else (.waits, h.parkedBy caller) :=
  ⟨_, rfl⟩

theorem exists_dumpPolled (known : ∀ c ∈ caller, (h.threads.record? c.record).isSome = true)
    (parked : (h.atStop caller pollers).threads.allParked = true) (receive : Written → α) :
    ∃ p : Safepoint, p.phase = .idle ∧ h.dumpPolled env caller pollers receive =
      (.done (receive ((h.atStop caller pollers).image env).encode),
        pollers.foldl (fun h c => (h.leave c.record).2)
          ({ h.atStop caller pollers with safepoint := p }.resumedBy caller)) := by
  obtain ⟨p, stopped⟩ := stopWorld_of_polled h caller pollers
  rw [if_pos parked] at stopped
  have ran : (h.parkedBy caller).dumpParked env pollers receive =
      (.done (receive ((h.atStop caller pollers).image env).encode),
        { h.atStop caller pollers with safepoint := p.resume }) := by
    rw [dumpParked, stopped]
    rfl
  have done := whileParked_of_done known ran
  refine ⟨p.resume, rfl, ?_⟩
  rw [dumpPolled, done]

theorem dumpPolled_of_running (running : (h.atStop caller pollers).threads.allParked = false)
    (receive : Written → α) : h.dumpPolled env caller pollers receive = (.waits, h) := by
  obtain ⟨p, stopped⟩ := stopWorld_of_polled h caller pollers
  rw [running] at stopped
  have ran : (h.parkedBy caller).dumpParked env pollers receive = (.waits, h.parkedBy caller) := by
    rw [dumpParked, stopped]
    rfl
  have waits : h.whileParked caller (dumpParked env pollers receive) = (.waits, h) := by
    cases caller with
    | none => exact ran
    | some c =>
      change (h.enter c).dumpParked env pollers receive = _ at ran
      unfold whileParked
      simp only [ran]
  rw [dumpPolled, waits]

theorem untouched_foldl_leave (idle : h.safepoint.phase = .idle)
    (running : ∀ c ∈ pollers, h.threads.depth c.record = 0) {p : Safepoint} (calm : p.phase = .idle) :
    h.Untouched (pollers.foldl (fun h c => (h.leave c.record).2)
      ({ h.atStop caller pollers with safepoint := p }.resumedBy caller)) := by
  have stopped : { h.atStop caller pollers with safepoint := p }.Alike (h.atStop caller pollers) :=
    { Alike.refl (h.atStop caller pollers) with phase := calm }
  have left := alike_foldl (fun alike (c : Caller) => (agree_leave alike c.record).2) pollers
    (alike_resumedBy stopped caller)
  have alike := left.trans (alike_of_polled idle caller pollers running)
  have back : (h.afterPolls caller pollers).SameButThreads
      ({ h.atStop caller pollers with safepoint := p }.resumedBy caller) := by
    cases caller <;> rfl
  have gone := sameButThreads_foldl (fun h (c : Caller) => sameButThreads_leave h c.record) pollers
    ({ h.atStop caller pollers with safepoint := p }.resumedBy caller)
  exact ⟨((sameButThreads_afterPolls h caller pollers).trans back).trans gone, alike.threads,
    rootValues_congr alike, unscathed_of_alike idle alike⟩

/-- What comes of dumps while certain threads poll. If that parks all threads, a dump comes to its end
with what its receiver makes of what is written, and leaves the heap as before; else it waits. -/
structure DumpsHarmlessly (env : Embedding) (caller : Option Caller) (pollers : List Caller)
    (h : Heap) : Prop where
  alone : pollers = [] → ∀ limit,
    h.dump env caller limit = h.dumpPolled env caller pollers (·.send limit)
  shown : h.SameButThreads (h.atStop caller pollers)
  received : h.Stops caller pollers → ∀ {α : Type} (receive : Written → α), ∃ h',
    h.dumpPolled env caller pollers receive = (.done (receive (h.written env caller pollers)), h') ∧
      h.Untouched h'
  refused : h.Stops caller pollers → ∀ n < (h.written env caller pollers).bytes.length, ∃ h',
    h.dumpPolled env caller pollers (·.send (some n)) =
      (.done ((h.written env caller pollers).bytes.take n, .error .refused), h') ∧ h.Untouched h'
  tooLong : h.Stops caller pollers → ¬ ((h.atStop caller pollers).image env).Fits →
    ∀ limit : Option Nat, (∀ n ∈ limit, (h.written env caller pollers).bytes.length ≤ n) → ∃ h',
      h.dumpPolled env caller pollers (·.send limit) =
        (.done ((h.written env caller pollers).bytes, .error .tooLong), h') ∧ h.Untouched h'
  /-- Dumps fail for these two reasons only. The bytes that have arrived are a prefix in any case. -/
  failed : ∀ limit bytes e h',
    h.dumpPolled env caller pollers (·.send limit) = (.done (bytes, .error e), h') →
      bytes <+: (h.written env caller pollers).bytes ∧ h.Untouched h' ∧
      ((∃ n, limit = some n ∧ bytes.length = n ∧ e = .refused) ∨
        e = .tooLong ∧ ¬ ((h.atStop caller pollers).image env).Fits)
  pieces : ∀ limit pieces, Written.concat pieces = h.written env caller pollers →
    Written.sendPieces limit pieces = (h.written env caller pollers).send limit
  waits : ¬ h.Stops caller pollers → ∀ {α : Type} (receive : Written → α),
    h.dumpPolled env caller pollers receive = (.waits, h)

theorem dump_eq_dumpPolled (limit : Option Nat) :
    h.dump env caller limit = h.dumpPolled env caller [] (·.send limit) := by
  change h.whileParked caller (dumpParked env [] (·.send limit)) = _
  rw [dumpPolled]
  generalize h.whileParked caller (dumpParked env [] (·.send limit)) = dumped
  obtain ⟨result, h'⟩ := dumped
  cases result <;> rfl

/-- **A dump that fails does no harm**, at whatever byte its receiver gives up and whatever count does
not fit: what has arrived is a prefix of what there was to write, and the world goes on as before. -/
theorem dumpsHarmlessly_of_reachable {config : Config} (run : Reachable config h)
    (known : ∀ c ∈ caller, (h.threads.record? c.record).isSome = true)
    (running : ∀ c ∈ pollers, h.threads.depth c.record = 0) :
    h.DumpsHarmlessly env caller pollers := by
  have received : h.Stops caller pollers → ∀ {α : Type} (receive : Written → α), ∃ h',
      h.dumpPolled env caller pollers receive = (.done (receive (h.written env caller pollers)), h') ∧
        h.Untouched h' := by
    intro parked α receive
    obtain ⟨p, calm, done⟩ := exists_dumpPolled known parked receive
    exact ⟨_, done, untouched_foldl_leave run.idle running calm⟩
  have waits : ¬ h.Stops caller pollers → ∀ {α : Type} (receive : Written → α),
      h.dumpPolled env caller pollers receive = (.waits, h) :=
    fun held α receive => dumpPolled_of_running (Bool.not_eq_true _ |>.mp held) receive
  refine
    { alone := ?_
      shown := sameButThreads_atStop h caller pollers
      received := received
      refused := ?_
      tooLong := ?_
      failed := ?_
      pieces := fun limit pieces same => same ▸ Written.sendPieces_eq pieces limit
      waits := waits }
  · rintro rfl limit
    exact dump_eq_dumpPolled limit
  · intro parked n short
    rw [← Written.send_of_lt short]
    exact received parked _
  · intro parked beyond limit room
    have cut : (h.written env caller pollers).complete = false :=
      Bool.not_eq_true _ |>.mp (mt HeapDump.complete_encode.mp beyond)
    rw [← Written.send_of_incomplete cut room]
    exact received parked _
  · intro limit bytes e h' failed
    by_cases parked : h.Stops caller pollers
    · obtain ⟨g, done, untouched⟩ := received parked (·.send limit)
      obtain ⟨answer, rfl⟩ := Prod.mk.inj (failed.symm.trans done)
      obtain ⟨arrived, cause⟩ := Written.cases_of_send_eq_error (Outcome.done.inj answer).symm
      refine ⟨arrived, untouched, cause.imp id fun ⟨complaint, cut⟩ => ⟨complaint, fun fits => ?_⟩⟩
      exact Bool.false_ne_true (cut.symm.trans (HeapDump.complete_encode.mpr fits))
    · cases (failed.symm.trans (waits parked _))

end Heap

def Embedding.farMap : Embedding :=
  { Embedding.sample with
    layout? := fun w =>
      if w = 8 then some { TypeLayout.object "cell" [true] with mapOffset := UInt32.size } else none }

namespace Heap

/-- The thread of the program polls while somebody else takes a dump, for a receiver that takes ten
bytes; and it takes a dump itself, for a receiver that takes all there is. -/
theorem dumpsHarmlessly_of_reachable_sample :
    Reachable (.testing 0) sample ∧ sample.threads.depth sampleCaller.record = 0 ∧
      (∃ h', sample.dumpPolled .farMap none [sampleCaller] (·.send (some 10)) =
        (.done (dumpMagic ++ [1, 0, 1, 0, 1, 0], .error .refused), h') ∧ sample.Untouched h') ∧
      ∃ bytes h', sample.dump .farMap (some sampleCaller) none =
        (.done (bytes, .error .tooLong), h') ∧ sample.Untouched h' := by
  have running : ∀ c ∈ [sampleCaller], sample.threads.depth c.record = 0 := by
    simp only [List.forall_mem_singleton]
    decide +kernel
  have known : ∀ c ∈ some sampleCaller, (sample.threads.record? c.record).isSome = true := by
    rintro c ⟨⟩
    exact hasCaller_sample.1
  have polled : sample.DumpsHarmlessly .farMap none [sampleCaller] :=
    dumpsHarmlessly_of_reachable reachable_sample nofun running
  have alone : sample.DumpsHarmlessly .farMap (some sampleCaller) [] :=
    dumpsHarmlessly_of_reachable reachable_sample known nofun
  have begins : (sample.written .farMap none [sampleCaller]).bytes.take 10 =
      dumpMagic ++ [1, 0, 1, 0, 1, 0] := by decide +kernel
  have beyond : ¬ ((sample.atStop (some sampleCaller) []).image .farMap).Fits := by
    rw [← HeapDump.complete_encode]
    decide +kernel
  refine ⟨reachable_sample, running _ List.mem_cons_self, ?_, ?_⟩
  · rw [← begins]
    exact polled.refused (by decide +kernel) 10 (by decide +kernel)
  · rw [alone.alone rfl]
    exact ⟨_, alone.tooLong (by decide +kernel) beyond none nofun⟩

end Heap

end MarkSweep
