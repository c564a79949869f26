import LinkTelemetry.Collector.Run
import LinkTelemetry.Proofs.Rounds
import Mathlib.Data.Nat.Find

/-!
# A cancelled run leaves whole cycles

A run can be cancelled before its first tick, between two cycles, or with any
part of a cycle in flight. In each case the monitor that is left is the one
that the completed cycles made, with a line or two more in the log: the
samples of the cycle in flight were never shown to it.

The first half holds for any times of the ticker and any samples. The second
half reads the same off a clock, and says which cycles of a schedule are the
completed ones: those that finish before the cancellation. A cycle that
finishes at that very moment is not among them.
-/

namespace LinkTelemetry

/-- The events of a cancelled run: its completed rounds, and what came of the
one in flight. -/
def cancelledTrace (done : List Round) (inFlight : Option Round) : List Event :=
  done.flatMap Round.events ++ (inFlight.elim [] Round.events ++ [.cancel])

theorem cancelledTrace_cons (r : Round) (done : List Round) (inFlight : Option Round) :
    cancelledTrace (r :: done) inFlight = r.events ++ cancelledTrace done inFlight := by
  rw [cancelledTrace, List.flatMap_cons, List.append_assoc]
  rfl

/-- The monitor with the last lines of a cancelled run. -/
def Monitor.closed (m : Monitor) (midCycle : Bool) : Monitor :=
  m.say ((if midCycle then [cancelledLine] else []) ++ [stoppedLine m.store.cycles])

namespace Run

theorem follow_cancelled (m : Monitor) (done : List Round) (inFlight : Option Round)
    (hdone : ∀ r ∈ done, r.Complete m.collector) (hopen : ∀ r ∈ inFlight, r.Open m.collector) :
    follow ⟨m, .ticking⟩ (cancelledTrace done inFlight) =
      ⟨(m.after (done.map Round.cycle)).closed inFlight.isSome, .stopped⟩ := by
  rw [cancelledTrace, follow_append, follow_rounds m done hdone]
  cases inFlight with
  | none => rfl
  | some r =>
      have hr : r.Open (m.after (done.map Round.cycle)).collector := by
        rw [Round.Open, m.pairs_after]
        exact hopen r rfl
      rw [Option.elim_some, follow_append, follow_of_open _ r.stamp r.back hr]
      show stop (Monitor.say _ [cancelledLine]) = _
      simp only [stop, Monitor.closed, Monitor.say, Option.isSome_some, if_true, List.append_assoc]

end Run

/-! ## On the clock -/

theorem foldl_max_lt_iff (l : List Nat) (start n : Nat) :
    l.foldl max start < n ↔ start < n ∧ ∀ a ∈ l, a < n := by
  induction l generalizing start with
  | nil => simp
  | cons a rest ih =>
      rw [List.foldl_cons, ih, Nat.max_lt, List.forall_mem_cons, and_assoc]

theorem Collector.duration_lt_iff (c : Collector) (replies : Replies) (n : Nat) :
    c.duration replies < n ↔
      0 < n ∧ ∀ p ∈ c.pairs, (replies p.1 p.2).duration c.timeoutMs < n := by
  rw [duration, foldl_max_lt_iff, List.forall_mem_map]

namespace Monitor.Schedule

variable (s : Schedule) (c : Collector)

/-- The time after the cycles before cycle number `k`, and when that one is
due. -/
def clock : Nat → Nat × Nat
  | 0 => (0, 0)
  | k + 1 =>
    let (now, due) := clock k
    let started := max now due
    (started + c.duration (s.replies k), nextDue c.intervalMs due started)

/-- When cycle number `k` starts. -/
def start (k : Nat) : Nat := max (s.clock c k).1 (s.clock c k).2

/-- When the last sample of cycle number `k` is in. -/
def finish (k : Nat) : Nat := s.start c k + c.duration (s.replies k)

/-- Cycle number `k`, as it is when nothing cuts it short. -/
def cycleAt (k : Nat) : Cycle := ⟨s.stamp (s.start c k), c.outcomes (s.replies k)⟩

/-- What a run sees of cycle number `k`. -/
def roundAt (k : Nat) : Round := s.round c k (s.start c k)

theorem le_due (k : Nat) : k ≤ (s.clock c k).2 := by
  induction k with
  | zero => exact Nat.zero_le _
  | succ k ih =>
      have hpos := c.interval_pos
      have hdue : (s.clock c k).2 + c.intervalMs ≤ (s.clock c (k + 1)).2 :=
        add_le_nextDue c.intervalMs (Nat.le_max_right ..)
      omega

theorem exists_unfinished : ∃ n, (∀ k < n, s.finish c k < s.cancelledAt) ∧
    s.cancelledAt ≤ s.finish c n := by
  have hlast : ∃ n, s.cancelledAt ≤ s.finish c n := by
    refine ⟨s.cancelledAt, ?_⟩
    have hdue := s.le_due c s.cancelledAt
    have hstart : (s.clock c s.cancelledAt).2 ≤ s.start c s.cancelledAt := Nat.le_max_right ..
    rw [finish]
    omega
  refine ⟨Nat.find hlast, fun k hk => ?_, Nat.find_spec hlast⟩
  exact Nat.lt_of_not_le (Nat.find_min hlast hk)

theorem events_clock (k : Nat) :
    s.events c k (s.clock c k).1 (s.clock c k).2 =
      if s.cancelledAt ≤ s.start c k then [.cancel]
      else (s.roundAt c k).events ++
        if s.cancelledAt ≤ s.finish c k then [.cancel]
        else s.events c (k + 1) (s.clock c (k + 1)).1 (s.clock c (k + 1)).2 := by
  rw [events]
  rfl

/-- What happens to a run, as completed rounds and one in flight. The
induction is on the number of cycles that finish in time. -/
theorem events_eq_trace (n : Nat) : ∀ k,
    (∀ j, k ≤ j → j < k + n → s.finish c j < s.cancelledAt) →
    s.cancelledAt ≤ s.finish c (k + n) →
    s.events c k (s.clock c k).1 (s.clock c k).2 =
      cancelledTrace ((List.range' k n).map (s.roundAt c))
        (if s.start c (k + n) < s.cancelledAt then some (s.roundAt c (k + n)) else none) := by
  induction n with
  | zero =>
      intro k _ hlast
      rw [Nat.add_zero] at hlast ⊢
      rw [events_clock]
      split
      · next h => rw [if_neg (Nat.not_lt.mpr h)]; rfl
      · next h => rw [if_pos (Nat.lt_of_not_le h)]; rfl
  | succ n ih =>
      intro k hdone hlast
      have hfinish := hdone k (Nat.le_refl k) (by omega)
      have hstart : s.start c k ≤ s.finish c k := Nat.le_add_right ..
      rw [events_clock, if_neg (by omega), if_neg (by omega), List.range'_succ, List.map_cons,
        cancelledTrace_cons]
      have hindex : k + (n + 1) = k + 1 + n := by omega
      rw [hindex] at hdone hlast ⊢
      rw [ih (k + 1) (fun j hj => hdone j (by omega)) hlast]

theorem finish_lt_iff (k : Nat) : s.finish c k < s.cancelledAt ↔
    s.start c k < s.cancelledAt ∧ ∀ p ∈ c.pairs,
      s.start c k + (s.replies k p.1 p.2).duration c.timeoutMs < s.cancelledAt := by
  have hleft : s.finish c k < s.cancelledAt ↔
      c.duration (s.replies k) < s.cancelledAt - s.start c k := by
    rw [finish]
    omega
  rw [hleft, c.duration_lt_iff]
  refine and_congr (by omega) (forall₂_congr fun p _ => ?_)
  omega

theorem roundAt_eq (k : Nat) : s.roundAt c k =
    .inOrder (s.stamp (s.start c k))
      ((c.arrivals (s.replies k)).filter fun p =>
        s.start c k + (s.replies k p.1 p.2).duration c.timeoutMs < s.cancelledAt)
      (c.outcomes (s.replies k)) := rfl

theorem complete_roundAt (k : Nat) (h : s.finish c k < s.cancelledAt) :
    (s.roundAt c k).Complete c := by
  have harrivals : (c.arrivals (s.replies k)).Perm c.pairs := List.mergeSort_perm ..
  rw [Round.Complete, roundAt_eq, Round.order_inOrder, List.filter_eq_self.mpr]
  · exact harrivals
  · intro p hp
    exact decide_eq_true (((s.finish_lt_iff c k).mp h).2 p (harrivals.mem_iff.mp hp))

theorem open_roundAt (k : Nat) (hstart : s.start c k < s.cancelledAt)
    (hfinish : s.cancelledAt ≤ s.finish c k) : (s.roundAt c k).Open c := by
  by_contra hall
  refine absurd ((s.finish_lt_iff c k).mpr ⟨hstart, fun p hp => ?_⟩) (Nat.not_lt.mpr hfinish)
  by_contra hlate
  refine hall ⟨p, hp, fun hback => hlate ?_⟩
  rw [roundAt_eq, Round.order_inOrder, List.mem_filter] at hback
  exact of_decide_eq_true hback.2

theorem agree_roundAt (k : Nat) (h : s.finish c k < s.cancelledAt) :
    c.Agree (s.roundAt c k).cycle.outcomes (s.cycleAt c k).outcomes := by
  refine Round.agree_inOrder c _ _ fun p hp => ?_
  have hmem := (s.complete_roundAt c k h).mem_iff.mpr hp
  rwa [roundAt_eq, Round.order_inOrder] at hmem

/-- A run on a schedule, when `n` is the number of its first cycle that the
cancellation does not let finish. -/
theorem run_eq (m : Monitor) (name : String) {n : Nat}
    (hdone : ∀ k < n, s.finish m.collector k < s.cancelledAt)
    (hlast : s.cancelledAt ≤ s.finish m.collector n) :
    m.run name s =
      ((m.say [startedLine m.collector name]).after
        ((List.range n).map (s.cycleAt m.collector))).closed
        (s.start m.collector n < s.cancelledAt) := by
  have htrace := s.events_eq_trace m.collector n 0 (fun j _ hj => hdone j (by omega))
    (by rwa [Nat.zero_add])
  rw [Nat.zero_add, ← List.range_eq_range'] at htrace
  have hevents : s.events m.collector 0 0 0 = _ := htrace
  rw [Monitor.run, hevents, Run.follow_cancelled]
  · have halike : List.Forall₂ (Cycle.Alike m.collector.pairs)
        (((List.range n).map (s.roundAt m.collector)).map Round.cycle)
        ((List.range n).map (s.cycleAt m.collector)) := by
      rw [List.map_map, List.forall₂_map_left_iff, List.forall₂_map_right_iff, List.forall₂_same]
      exact fun k hk => ⟨rfl, s.agree_roundAt m.collector k (hdone k (List.mem_range.mp hk))⟩
    have hcycles := (m.say [startedLine m.collector name]).after_congr halike
    show Monitor.closed (Monitor.after _ (List.map Round.cycle _)) _ = _
    rw [hcycles]
    congr 1
    split
    · next h => exact (decide_eq_true h).symm
    · next h => exact (decide_eq_false h).symm
  · intro r hr
    obtain ⟨k, hk, rfl⟩ := List.mem_map.mp hr
    exact s.complete_roundAt m.collector k (hdone k (List.mem_range.mp hk))
  · intro r hr
    split at hr
    · next h => cases hr; exact s.open_roundAt m.collector n h hlast
    · cases hr

end Monitor.Schedule

/-- When a cancelled run is over, the monitor is the one that its completed
cycles make one after the other, and nothing that happens later changes it.
On a schedule these are the cycles that finish before the cancellation. -/
theorem cancelled_run_is_its_completed_cycles (m : Monitor) :
    (∀ (done : List Round) (inFlight : Option Round) (late : List Event),
      (∀ r ∈ done, r.Complete m.collector) → (∀ r ∈ inFlight, r.Open m.collector) →
      Run.follow ⟨m, .ticking⟩ (cancelledTrace done inFlight ++ late) =
        ⟨(m.after (done.map Round.cycle)).closed inFlight.isSome, .stopped⟩) ∧
    (∀ (name : String) (s : Monitor.Schedule), ∃ n,
      (∀ k < n, s.finish m.collector k < s.cancelledAt) ∧
      s.cancelledAt ≤ s.finish m.collector n ∧
      m.run name s =
        ((m.say [Monitor.startedLine m.collector name]).after
          ((List.range n).map (s.cycleAt m.collector))).closed
          (s.start m.collector n < s.cancelledAt)) := by
  constructor
  · intro done inFlight late hdone hopen
    rw [Run.follow_append, Run.follow_cancelled m done inFlight hdone hopen, Run.follow_stopped]
  · intro name s
    obtain ⟨n, hdone, hlast⟩ := s.exists_unfinished m.collector
    exact ⟨n, hdone, hlast, s.run_eq m name hdone hlast⟩

/-- One complete round, whose samples come back last pair first, and one of
which only the counter is back when the run is cancelled. On a schedule on
which nothing ever answers, a cancellation within the deadline leaves no
cycle at all. -/
theorem cancelled_run_after_one_cycle :
    ∃ c, Collector.timed ["server"] [.bytesIn, .latencyMs] none none = .ok c ∧
      ∀ store log,
        let m : Monitor := ⟨c, store, log⟩
        let first : Round := ⟨10, [(("server", .latencyMs), .ok (.gauge 3)),
          (("server", .bytesIn), .ok (.counter 1000))]⟩
        let second : Round := ⟨11, [(("server", .bytesIn), .ok (.counter 2000))]⟩
        first.Complete c ∧ second.Open c ∧
          Run.follow ⟨m, .ticking⟩ (cancelledTrace [first] (some second) ++
              [.reply ("server", .latencyMs) (.ok (.gauge 4))]) =
            ⟨(m.cycle 10 (.ofList first.back)).closed true, .stopped⟩ ∧
          m.run "probe" ⟨fun _ _ _ => .never, fun _ => 10, 500⟩ =
            (m.say [Monitor.startedLine c "probe"]).closed true := by
  obtain ⟨c, hc, hpairs, htimeout⟩ : ∃ c,
      Collector.timed ["server"] [.bytesIn, .latencyMs] none none = .ok c ∧
        c.pairs = [("server", .bytesIn), ("server", .latencyMs)] ∧ c.timeoutMs = 1000 :=
    ⟨_, rfl, rfl, rfl⟩
  refine ⟨c, hc, fun store log => ?_⟩
  intro m first second
  obtain ⟨htrace, hrun⟩ := cancelled_run_is_its_completed_cycles m
  have hfirst : first.Complete m.collector := by
    show List.Perm _ c.pairs
    rw [hpairs]
    decide
  have hsecond : second.Open m.collector := by
    refine ⟨("server", .latencyMs), ?_, by decide⟩
    show _ ∈ c.pairs
    rw [hpairs]
    decide
  refine ⟨hfirst, hsecond, ?_, ?_⟩
  · refine htrace [first] (some second) _ ?_ ?_
    · intro r hr
      rw [List.mem_singleton.mp hr]
      exact hfirst
    · intro r hr
      rw [← Option.some.inj hr]
      exact hsecond
  · obtain ⟨n, hdone, hlast, heq⟩ := hrun "probe" ⟨fun _ _ _ => .never, fun _ => 10, 500⟩
    cases n with
    | zero =>
        rw [heq]
        rfl
    | succ n =>
        have hfinish := hdone 0 (Nat.succ_pos n)
        have hduration : c.duration (fun _ _ => .never) = 1000 := by
          simp [Collector.duration, hpairs, htimeout, Reply.duration, Reply.never]
        have hlate :
            1000 ≤ Monitor.Schedule.finish ⟨fun _ _ _ => .never, fun _ => 10, 500⟩ c 0 := by
          rw [Monitor.Schedule.finish, hduration]
          exact Nat.le_add_left ..
        exact absurd hfinish (Nat.not_lt.mpr (Nat.le_trans (by decide) hlate))

end LinkTelemetry
