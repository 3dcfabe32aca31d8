import MarkSweep.Mark.Pool
import Mathlib.Tactic.Common

set_option autoImplicit false

namespace MarkSweep

namespace Pool

def put (i : Nat) (w : Worker) (p : Pool) : Pool :=
  { p with workers := p.workers.setIfInBounds i w }

theorem modifyWorker_eq_put {p : Pool} {i : Nat} {w : Worker} (found : p.workers[i]? = some w)
    (f : Worker → Worker) : p.modifyWorker i f = p.put i (f w) := by
  have workers : p.workers.modify i f = p.workers.setIfInBounds i (f w) := by
    apply Array.ext_getElem?
    intro j
    rw [Array.getElem?_modify, Array.getElem?_setIfInBounds]
    by_cases h : i = j
    · subst h
      rw [if_pos rfl, if_pos rfl, if_pos (Array.getElem?_eq_some_iff.1 found).1, found]
      rfl
    · rw [if_neg h, if_neg h]
  rw [modifyWorker, workers]
  rfl

inductive WorkerTurn (p : Pool) (grows : Bool) (i : Nat) (w : Worker) : Pool → Prop
  | receives {batch : List Addr} {inbox : List (List Addr)} (stage : w.stage = .resting)
      (shares : w.inbox = batch :: inbox) :
      WorkerTurn p grows i w
        (p.put i { stage := .looking, scanner := { pending := .ofList batch }, inbox })
  | stops (stage : w.stage = .looking) (cancelled : p.cancelled = true) :
      WorkerTurn p grows i w (p.put i { w with stage := .closing none })
  | resumes (stage : w.stage = .looking) :
      WorkerTurn p grows i w
        (p.put i { w with stage := .scanning, scanner := { w.scanner with budget := p.interval } })
  | dries (stage : w.stage = .scanning) (paused : w.scanner.isPaused = true)
      (empty : w.scanner.pending.isEmpty = true) :
      WorkerTurn p grows i w (p.put i { w with stage := .refilling })
  | pauses (stage : w.stage = .scanning) (paused : w.scanner.isPaused = true) :
      WorkerTurn p grows i w (p.put i { w with stage := .offering })
  | scans {scanner : Scanner} {arena : Arena} (stage : w.stage = .scanning)
      (working : w.scanner.isPaused = false)
      (advanced : w.scanner.advance p.around grows p.arena = (.ok scanner, arena)) :
      WorkerTurn p grows i w
        (put i { w with scanner } { p with arena, scans := p.scans ++ w.scanner.next?.toList })
  | fails {e : Error} {arena : Arena} (stage : w.stage = .scanning)
      (working : w.scanner.isPaused = false)
      (advanced : w.scanner.advance p.around grows p.arena = (.error e, arena)) :
      WorkerTurn p grows i w
        (put i { w with stage := .closing (some e) }
          { p with arena, scans := p.scans ++ w.scanner.next?.toList, faults := p.faults ++ [e] })
  | ends (stage : w.stage = .refilling) (nothing : p.surplus = []) :
      WorkerTurn p grows i w (p.put i { w with stage := .closing none })
  | refills (stage : w.stage = .refilling) :
      WorkerTurn p grows i w
        (put i { w with
            stage := .looking
            scanner := { w.scanner with pending := w.scanner.pending.extend p.surplus } }
          { p with surplus := [] })
  | overflows (e : Error) (stage : w.stage = .refilling) (stuck : grows = false) :
      WorkerTurn p grows i w
        (put i { w with stage := .closing (some e) } { p with faults := p.faults ++ [e] })
  | declines (stage : w.stage = .offering) :
      WorkerTurn p grows i w (p.put i { w with stage := .looking })
  | seesLeader (stage : w.stage = .offering) :
      WorkerTurn p grows i w (p.put i { w with stage := .sharing })
  | doubts (stage : w.stage = .offering) :
      WorkerTurn p grows i w (p.put i { w with stage := .comparing })
  | seesNobody (stage : w.stage = .comparing) :
      WorkerTurn p grows i w (p.put i { w with stage := .looking })
  | seesWorker (stage : w.stage = .comparing) :
      WorkerTurn p grows i w (p.put i { w with stage := .sharing })
  | offers {someoneRests : Bool} {surplus : List Addr} {pending : MarkStack}
      (stage : w.stage = .sharing)
      (offered : w.scanner.pending.offerSurplus p.minDispatch someoneRests p.surplus =
        (surplus, pending)) :
      WorkerTurn p grows i w
        (put i { w with stage := .looking, scanner := { w.scanner with pending } }
          { p with surplus })
  | counts {found : Option Error} (stage : w.stage = .closing found) :
      WorkerTurn p grows i w
        (put i { w with stage := found.elim .leaving .failing }
          { p with scanned := p.scanned + w.scanner.scanned })
  | cancels {e : Error} (stage : w.stage = .failing e) :
      WorkerTurn p grows i w
        (put i { w with stage := .recording e } { p with cancelled := true })
  | records {e : Error} (stage : w.stage = .recording e) :
      WorkerTurn p grows i w
        (put i { w with stage := .leaving } { p with failure := p.failure <|> some e })
  | leaves (stage : w.stage = .leaving) :
      WorkerTurn p grows i w
        (put i { w with stage := .resting, scanner := {} }
          { p with active := Word.withoutBit p.active i })

theorem getElem?_put {p : Pool} {i : Nat} {w : Worker} (found : p.workers[i]? = some w)
    (v : Worker) (j : Nat) : (p.put i v).workers[j]? = if i = j then some v else p.workers[j]? := by
  simp only [put, Array.getElem?_setIfInBounds, (Array.getElem?_eq_some_iff.1 found).1, if_true]

theorem put_put (p : Pool) (i : Nat) (v w : Worker) : (p.put i v).put i w = p.put i w := by
  simp [put, Array.setIfInBounds_setIfInBounds]

theorem workerTurn_of_workerStep {p q : Pool} {i : Nat} {grows free : Bool}
    (taken : p.workerStep i grows free = some q) :
    ∃ w, p.workers[i]? = some w ∧ p.WorkerTurn grows i w q := by
  unfold workerStep at taken
  cases found : p.workers[i]? with
  | none => simp [found] at taken
  | some w =>
    have put_once : ∀ (r : Pool) (f : Worker → Worker), r.workers = p.workers →
        r.modifyWorker i f = r.put i (f w) := fun r f same =>
      modifyWorker_eq_put (same ▸ found) f
    have put_twice : ∀ (r : Pool) (f g : Worker → Worker), r.workers = p.workers →
        (r.modifyWorker i f).modifyWorker i g = r.put i (g (f w)) := by
      intro r f g same
      have found' : (r.put i (f w)).workers[i]? = some (f w) := by
        rw [getElem?_put (same ▸ found), if_pos rfl]
      rw [put_once r f same, modifyWorker_eq_put found', put_put]
    refine ⟨w, rfl, ?_⟩
    simp only [found, Option.bind_eq_bind, Option.bind_some] at taken
    cases stage : w.stage with
    | resting =>
      simp only [stage] at taken
      cases shares : w.inbox with
      | nil => simp [shares] at taken
      | cons batch inbox =>
        simp only [shares] at taken
        obtain rfl := Option.some.inj taken
        rw [put_once]
        exacts [.receives stage shares, rfl]
    | looking =>
      simp only [stage] at taken
      split at taken
      · next cancelled =>
        obtain rfl := Option.some.inj taken
        rw [put_once]
        exacts [.stops stage cancelled, rfl]
      · obtain rfl := Option.some.inj taken
        rw [put_twice]
        exacts [.resumes stage, rfl]
    | scanning =>
      simp only [stage] at taken
      split at taken
      · next paused =>
        split at taken
        · next empty =>
          obtain rfl := Option.some.inj taken
          rw [put_once]
          exacts [.dries stage paused empty, rfl]
        · obtain rfl := Option.some.inj taken
          rw [put_once]
          exacts [.pauses stage paused, rfl]
      · next working =>
        rw [Bool.not_eq_true] at working
        split at taken
        · next scanner arena advanced =>
          obtain rfl := Option.some.inj taken
          rw [put_once]
          exacts [.scans stage working advanced, rfl]
        · next e arena advanced =>
          obtain rfl := Option.some.inj taken
          rw [put_once]
          exacts [.fails stage working advanced, rfl]
    | refilling =>
      simp only [stage] at taken
      split at taken
      · next nothing =>
        obtain rfl := Option.some.inj taken
        rw [put_once]
        exacts [.ends stage nothing, rfl]
      · split at taken
        · simp only [MarkStack.takeSurplus] at taken
          obtain rfl := Option.some.inj taken
          rw [put_twice]
          exacts [.refills stage, rfl]
        · next stuck =>
          obtain rfl := Option.some.inj taken
          rw [put_once]
          exacts [.overflows _ stage (by simpa using stuck), rfl]
    | offering =>
      simp only [stage] at taken
      split at taken
      · obtain rfl := Option.some.inj taken
        rw [put_once]
        exacts [.declines stage, rfl]
      · split at taken
        · obtain rfl := Option.some.inj taken
          rw [put_once]
          exacts [.seesLeader stage, rfl]
        · obtain rfl := Option.some.inj taken
          rw [put_once]
          exacts [.doubts stage, rfl]
    | comparing =>
      simp only [stage] at taken
      split at taken
      · obtain rfl := Option.some.inj taken
        rw [put_once]
        exacts [.seesNobody stage, rfl]
      · obtain rfl := Option.some.inj taken
        rw [put_once]
        exacts [.seesWorker stage, rfl]
    | sharing =>
      simp only [stage] at taken
      obtain rfl := Option.some.inj taken
      rw [put_twice]
      exacts [.offers stage rfl, rfl]
    | closing error =>
      simp only [stage] at taken
      cases error with
      | none =>
        obtain rfl := Option.some.inj taken
        rw [put_once]
        exacts [.counts stage, rfl]
      | some e =>
        obtain rfl := Option.some.inj taken
        rw [put_once]
        exacts [.counts stage, rfl]
    | failing e =>
      simp only [stage] at taken
      obtain rfl := Option.some.inj taken
      rw [put_once]
      exacts [.cancels stage, rfl]
    | recording e =>
      simp only [stage] at taken
      obtain rfl := Option.some.inj taken
      rw [put_once]
      exacts [.records stage, rfl]
    | leaving =>
      simp only [stage] at taken
      obtain rfl := Option.some.inj taken
      rw [put_twice]
      exacts [.leaves stage, rfl]
    | lost => simp [stage] at taken

inductive Follows (p : Pool) : LeaderStage → LeaderStage → Prop
  | skips : Follows p .dealing .looking
  | deals {count : Nat} :
      Follows p .dealing (.sending (restingWorkers p.workers.size p.active) count)
  | finishes {count : Nat} : Follows p (.sending [] count) .looking
  | stops (cancelled : p.cancelled = true) : Follows p .looking (.ending (.ok p.scanner.scanned))
  | dries (paused : p.scanner.isPaused = true) (empty : p.scanner.pending.isEmpty = true) :
      Follows p .scanning (.refilling false)
  | pauses (paused : p.scanner.isPaused = true) : Follows p .scanning .dealing
  | ends (nothing : p.surplus = []) :
      Follows p (.refilling true) (.ending (.ok p.scanner.scanned))
  | doubts : Follows p (.refilling false) .counting
  | confirms (nobody : p.active = 0) : Follows p .counting (.refilling true)
  | gives : Follows p .counting .pausing
  | rests : Follows p .pausing .waking
  | wakes : Follows p .waking .looking
  | settles {result : Except Error Nat} (nobody : p.active = 0) :
      Follows p (.settling result) (.reporting result)
  | waits {result : Except Error Nat} : Follows p (.settling result) (.stirring result)
  | stirs {result : Except Error Nat} : Follows p (.stirring result) (.settling result)

inductive LeaderTurn (p : Pool) (grows : Bool) : Pool → Prop
  | follows {a b : LeaderStage} {leaderRests : Bool} (here : p.leader = a)
      (follows : p.Follows a b) : LeaderTurn p grows { p with leader := b, leaderRests }
  | sends {i count : Nat} {rest : List Nat} (here : p.leader = .sending (i :: rest) count) :
      LeaderTurn p grows { p.send grows i count with leader := .sending rest count }
  | resumes (here : p.leader = .looking) :
      LeaderTurn p grows
        { p with leader := .scanning, scanner := { p.scanner with budget := p.interval } }
  | scans {scanner : Scanner} {arena : Arena} (here : p.leader = .scanning)
      (working : p.scanner.isPaused = false)
      (advanced : p.scanner.advance p.around grows p.arena = (.ok scanner, arena)) :
      LeaderTurn p grows
        { p with leader := .scanning, scanner, arena, scans := p.scans ++ p.scanner.next?.toList }
  | fails {e : Error} {arena : Arena} (here : p.leader = .scanning)
      (advanced : p.scanner.advance p.around grows p.arena = (.error e, arena)) :
      LeaderTurn p grows
        (leaderFails { p with arena, scans := p.scans ++ p.scanner.next?.toList } e)
  | refills {nobodyActive : Bool} (here : p.leader = .refilling nobodyActive) :
      LeaderTurn p grows { p with
        leader := if nobodyActive then .looking else .dealing
        scanner := { p.scanner with pending := p.scanner.pending.extend p.surplus }, surplus := [] }
  | overflows {e : Error} {nobodyActive : Bool} (here : p.leader = .refilling nobodyActive)
      (stuck : grows = false) : LeaderTurn p grows (p.leaderFails e)
  | misses {i : Nat} {e : Error} (here : p.leader = .waking) (lost : p.lost? = some i) :
      LeaderTurn p grows (leaderFails { p with leaderRests := false } e)
  | ends {result : Except Error Nat} (here : p.leader = .ending result) :
      LeaderTurn p grows
        { p with leader := .settling result, cancelled := p.cancelled || !result.isOk }
  | despairs {i : Nat} {e : Error} {result : Except Error Nat} (here : p.leader = .stirring result)
      (lost : p.lost? = some i) :
      LeaderTurn p grows { p with
        leader := .reporting (result.bind fun _ => .error e), faults := p.faults ++ [e] }
  | returnsError {e : Error} (here : p.leader = .reporting (.error e)) :
      LeaderTurn p grows { p with leader := .resting (some (.error e)), leaderRests := false }
  | returnsFailure {e : Error} {n : Nat} (here : p.leader = .reporting (.ok n))
      (failure : p.failure = some e) :
      LeaderTurn p grows
        { p with leader := .resting (some (.error e)), leaderRests := false, failure := none }
  | returns {n : Nat} (here : p.leader = .reporting (.ok n)) (failure : p.failure = none) :
      LeaderTurn p grows
        { p with leader := .resting (some (.ok (n + p.scanned))), leaderRests := false }

theorem leaderTurn_of_leaderStep {p q : Pool} {grows : Bool} (taken : p.leaderStep grows = some q) :
    p.LeaderTurn grows q := by
  unfold leaderStep at taken
  cases here : p.leader with
  | resting result => simp [here] at taken
  | dealing =>
    simp only [here] at taken
    split at taken
    · obtain rfl := Option.some.inj taken
      exact .follows here .skips
    · obtain rfl := Option.some.inj taken
      exact .follows here .deals
  | sending is count =>
    cases is with
    | nil =>
      simp only [here] at taken
      obtain rfl := Option.some.inj taken
      exact .follows here .finishes
    | cons i rest =>
      simp only [here] at taken
      obtain rfl := Option.some.inj taken
      exact .sends here
  | looking =>
    simp only [here] at taken
    split at taken
    · next cancelled =>
      obtain rfl := Option.some.inj taken
      exact .follows here (.stops cancelled)
    · obtain rfl := Option.some.inj taken
      exact .resumes here
  | scanning =>
    simp only [here] at taken
    split at taken
    · next paused =>
      split at taken
      · next empty =>
        obtain rfl := Option.some.inj taken
        exact .follows here (.dries paused empty)
      · obtain rfl := Option.some.inj taken
        exact .follows here (.pauses paused)
    · next working =>
      rw [Bool.not_eq_true] at working
      split at taken
      · next scanner arena advanced =>
        obtain rfl := Option.some.inj taken
        exact .scans here working advanced
      · next e arena advanced =>
        obtain rfl := Option.some.inj taken
        exact .fails here advanced
  | refilling nobodyActive =>
    simp only [here] at taken
    split at taken
    · next nothing =>
      cases nobodyActive with
      | true =>
        obtain rfl := Option.some.inj taken
        exact .follows here (.ends nothing)
      | false =>
        obtain rfl := Option.some.inj taken
        exact .follows here .doubts
    · split at taken
      · obtain rfl := Option.some.inj taken
        exact .refills here
      · next stuck =>
        obtain rfl := Option.some.inj taken
        exact .overflows here (by simpa using stuck)
  | counting =>
    simp only [here] at taken
    obtain rfl := Option.some.inj taken
    by_cases nobody : p.active = 0
    · rw [if_pos nobody]
      exact .follows here (.confirms nobody)
    · rw [if_neg nobody]
      exact .follows here .gives
  | pausing =>
    simp only [here] at taken
    obtain rfl := Option.some.inj taken
    exact .follows here .rests
  | waking =>
    simp only [here] at taken
    split at taken
    · next lost =>
      obtain rfl := Option.some.inj taken
      exact .misses here lost
    · obtain rfl := Option.some.inj taken
      exact .follows here .wakes
  | ending result =>
    simp only [here] at taken
    obtain rfl := Option.some.inj taken
    exact .ends here
  | settling result =>
    simp only [here] at taken
    obtain rfl := Option.some.inj taken
    by_cases nobody : p.active = 0
    · rw [if_pos nobody]
      exact .follows here (.settles nobody)
    · rw [if_neg nobody]
      exact .follows here .waits
  | stirring result =>
    simp only [here] at taken
    split at taken
    · obtain rfl := Option.some.inj taken
      exact .follows here .stirs
    · next i lost =>
      obtain rfl := Option.some.inj taken
      exact .despairs here lost
  | reporting result =>
    simp only [here] at taken
    split at taken
    · obtain rfl := Option.some.inj taken
      exact .returnsError here
    · next failure =>
      obtain rfl := Option.some.inj taken
      exact .returnsFailure here failure
    · next failure =>
      obtain rfl := Option.some.inj taken
      exact .returns here failure

end Pool

end MarkSweep
