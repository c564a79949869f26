import LinkTelemetry.Proofs.Assembly
import LinkTelemetry.Proofs.Tables

/-!
# Baselines and rates over whole runs

What a collector keeps of the past of a counter is one number and its stamp,
and this file says of which cycle: the last one in which the sample of that
very pair was good, however many failed cycles lie behind it and whatever the
other pairs did. The rate of a cycle is the rate from there.

The step is `Collector.baseline?_after`: a cycle puts its own good total in
front of what was there before. Folded over a run, what is in front is the
last good total, and `lastGood` is nothing else.
-/

namespace LinkTelemetry

/-- The last good total of a pair in a list of cycles, with the stamp of its
cycle. -/
def lastGood (cycles : List Cycle) (p : Pair) : Option Baseline :=
  (cycles.filterMap fun cycle => (cycle.outcomes p.1 p.2).good? cycle.stamp).getLast?

/-- The rate of a counter in a cycle that comes after others: zero for a
failed sample and for the first good one, and otherwise the rate from the
last good total before it. -/
def rateAfter (past : List Cycle) (now : Cycle) (p : Pair) : Float :=
  match now.outcomes p.1 p.2, lastGood past p with
  | .ok v, some last => rate v.toFloat (some last.value) (now.stamp - last.stamp)
  | _, _ => 0

theorem lastGood_cons (cycle : Cycle) (rest : List Cycle) (p : Pair) :
    lastGood (cycle :: rest) p =
      (lastGood rest p).or ((cycle.outcomes p.1 p.2).good? cycle.stamp) :=
  getLast?_filterMap_cons _ cycle rest

namespace Monitor

/-- The baselines after a run that began with any others. -/
theorem baseline?_after (m : Monitor) (cycles : List Cycle) (e : EndpointName) (metric : Metric) :
    (m.after cycles).collector.baseline? e metric =
      if (e, metric) ∈ m.collector.pairs ∧ metric.isCounter then
        (lastGood cycles (e, metric)).or (m.collector.baseline? e metric)
      else m.collector.baseline? e metric := by
  induction cycles generalizing m with
  | nil => exact (ite_self _).symm
  | cons cycle rest ih =>
      have hpairs : (m.cycle cycle.stamp cycle.outcomes).collector.pairs = m.collector.pairs := rfl
      have hstep : (m.cycle cycle.stamp cycle.outcomes).collector.baseline? e metric = _ :=
        m.collector.baseline?_after cycle.stamp cycle.outcomes e metric
      rw [after_cons, ih, hpairs, hstep]
      split
      · rw [lastGood_cons, Option.or_assoc]
      · rfl

/-- The rate that a cycle publishes of a counter. -/
theorem rate?_cycle (m : Monitor) (now : Cycle) {e : EndpointName} {metric : Metric}
    (hp : (e, metric) ∈ m.collector.pairs) (hcounter : metric.isCounter) :
    ((m.cycle now.stamp now.outcomes).store.current? e).bind (·.rate? metric) =
      some (match now.outcomes e metric, m.collector.baseline? e metric with
        | .ok v, some last => rate v.toFloat (some last.value) (now.stamp - last.stamp)
        | _, _ => 0) := by
  have hcell := m.cell_cycle now.stamp now.outcomes hp
  obtain ⟨s, hs, hscell⟩ := Option.map_eq_some_iff.mp hcell
  have hrate : s.rate? metric = _ := congrArg Snapshot.Cell.rate hscell
  rw [hs, Option.bind_some, hrate, Sample.rate_cell, if_pos hcounter]
  rfl

end Monitor

/-- The baseline of a polled counter is its last good total, and the rate of
each cycle is the rate from the last good total before that cycle. -/
theorem baseline_and_rate_of_last_good {endpoints : List EndpointName} {metrics : List Metric}
    {interval timeout : Option Nat} {c : Collector}
    (hc : Collector.timed endpoints metrics interval timeout = .ok c)
    (store : Store) (log : List LogLine) :
    let start : Monitor := ⟨c, store, log⟩
    (∀ cycles e m, (e, m) ∈ c.pairs → m.isCounter →
      (start.after cycles).collector.baseline? e m = lastGood cycles (e, m)) ∧
    (∀ cycles e m, ¬ m.isCounter → (start.after cycles).collector.baseline? e m = none) ∧
    (∀ past now e m, (e, m) ∈ c.pairs → m.isCounter →
      ((start.after (past ++ [now])).store.current? e).bind (·.rate? m) =
        some (rateAfter past now (e, m))) := by
  intro start
  have hfresh : ∀ e m, start.collector.baseline? e m = none := by
    intro e m
    rw [Collector.baseline?, (Collector.isNew_of_timed hc).baselines_eq, PairMap.get?_empty]
  have hbase : ∀ cycles e m, (e, m) ∈ c.pairs → m.isCounter →
      (start.after cycles).collector.baseline? e m = lastGood cycles (e, m) := by
    intro cycles e m hp hm
    rw [start.baseline?_after, if_pos ⟨hp, hm⟩, hfresh, Option.or_none]
  refine ⟨hbase, ?_, ?_⟩
  · intro cycles e m hm
    rw [start.baseline?_after, if_neg fun h => hm h.2, hfresh]
  · intro past now e m hp hm
    have hp' : (e, m) ∈ (start.after past).collector.pairs := by
      rw [start.pairs_after]
      exact hp
    rw [Monitor.after_append]
    refine ((start.after past).rate?_cycle now hp' hm).trans ?_
    rw [hbase past e m hp hm]
    rfl

/-- A good total, a failed sample, and a good total again. The rate of the
third cycle reaches back over the second. -/
theorem baseline_and_rate_over_failure :
    ∃ c, Collector.timed ["server"] [.bytesIn, .latencyMs] none none = .ok c ∧
      ("server", .bytesIn) ∈ c.pairs ∧ Metric.isCounter .bytesIn ∧ ¬ Metric.isCounter .latencyMs ∧
      ∀ store log,
        let start : Monitor := ⟨c, store, log⟩
        let past : List Cycle := [⟨10, fun _ _ => .ok (.counter 1000)⟩,
          ⟨11, fun _ _ => .error .timeout⟩]
        let now : Cycle := ⟨12, fun _ _ => .ok (.counter 3000)⟩
        (start.after past).collector.baseline? "server" .bytesIn =
            some ⟨UInt64.toFloat 1000, 10⟩ ∧
          (start.after past).collector.baseline? "server" .latencyMs = none ∧
          ((start.after (past ++ [now])).store.current? "server").bind (·.rate? .bytesIn) =
            some (rate (UInt64.toFloat 3000) (some (UInt64.toFloat 1000)) (12 - 10)) := by
  refine ⟨_, rfl, by decide, by decide, by decide, fun store log => ?_⟩
  obtain ⟨hbase, hgauge, hrate⟩ :=
    @baseline_and_rate_of_last_good ["server"] [.bytesIn, .latencyMs] none none _ rfl store log
  exact ⟨hbase _ _ _ (by decide) rfl, hgauge _ _ _ (by decide), hrate _ _ _ _ (by decide) rfl⟩

end LinkTelemetry
