import LinkTelemetry.Proofs.Completeness
import LinkTelemetry.Proofs.Construction
import LinkTelemetry.Proofs.Documents

/-!
# Health is that of the last cycle

The answer about health is put together from the latest snapshots, whatever
cycles they come from. But every cycle replaces the latest snapshot of every
endpoint at once, so the latest snapshots are always those of one cycle, the
last. What failed before has no part in the answer, and neither has the
history: the latest snapshots are kept apart from it, so it may have lost all
of them.

`Health.Reports` says what the answer is, from the last cycle alone, and
`Health.WrittenAs` how it stands in the document.
-/

namespace LinkTelemetry

namespace Collector

variable {c : Collector} {stamp : Float} {outcomes : Outcomes} {s : Snapshot}

theorem failed_iff (p : Pair) : failed outcomes p ↔ ∀ v, outcomes p.1 p.2 ≠ .ok v := by
  rw [failed]
  cases outcomes p.1 p.2 with
  | ok v => simp
  | error cause => simp

theorem isStale_of_mem (hs : s ∈ c.snapshots stamp outcomes) (m : Metric) :
    s.isStale m ↔ m ∈ c.metrics ∧ failed outcomes (s.endpoint, m) := by
  have hcell : s.isStale m = (s.cell m).stale := rfl
  rw [hcell, cell_of_mem hs]
  split
  · next hm => rw [Sample.stale_cell, failed_iff, and_iff_right hm]
  · next hm => exact ⟨fun h => absurd h Bool.false_ne_true, fun h => absurd h.1 hm⟩

theorem exists_snapshot (c : Collector) (stamp : Float) (outcomes : Outcomes) {e : EndpointName}
    (he : e ∈ c.endpoints) : ∃ s ∈ c.snapshots stamp outcomes, s.endpoint = e := by
  rw [← c.endpoint_snapshots stamp outcomes] at he
  exact List.mem_map.mp he

theorem snapshots_ne_nil (c : Collector) (stamp : Float) (outcomes : Outcomes) :
    c.snapshots stamp outcomes ≠ [] := by
  intro hnil
  have hendpoints := c.endpoint_snapshots stamp outcomes
  rw [hnil] at hendpoints
  exact c.endpoints_ne_nil hendpoints.symm

end Collector

/-- Every cycle counts as an update. -/
theorem Monitor.cycles_after (m : Monitor) (cycles : List Cycle) :
    (m.after cycles).store.cycles = m.store.cycles + cycles.length := by
  induction cycles generalizing m with
  | nil => rfl
  | cons cycle rest ih =>
      have hcycle : (m.cycle cycle.stamp cycle.outcomes).store.cycles = m.store.cycles + 1 := by
        rw [Monitor.cycle, Store.publishCycle, if_neg]
        rw [List.isEmpty_iff]
        exact m.collector.snapshots_ne_nil _ _
      rw [Monitor.after_cons, ih, hcycle, List.length_cons]
      omega

namespace Export

/-- No sample of a cycle failed. -/
def Succeeded (endpoints : List EndpointName) (metrics : List Metric) (cycle : Cycle) : Prop :=
  ∀ e ∈ endpoints, ∀ m ∈ metrics, ∃ v, cycle.outcomes e m = .ok v

namespace EndpointHealth

/-- The health of an endpoint by the last cycle, if there is one: which of its
samples failed in it, in the order of the metrics. -/
def byLast (metrics : List Metric) (last? : Option Cycle) (e : EndpointName) : EndpointHealth :=
  match last? with
  | none => ⟨e, false, [], none⟩
  | some last =>
    let stale := Metric.all.filter fun m =>
      metrics.contains m && Collector.failed last.outcomes (e, m)
    ⟨e, true, stale, some last.stamp⟩

theorem byLast_eraseDups (metrics : List Metric) (last? : Option Cycle) (e : EndpointName) :
    byLast metrics.eraseDups last? e = byLast metrics last? e := by
  have hcontains : ∀ m, metrics.eraseDups.contains m = metrics.contains m := fun m => by
    rw [Bool.eq_iff_iff, List.contains_iff_mem, List.contains_iff_mem, List.mem_eraseDups]
  cases last? with
  | none => rfl
  | some last => simp only [byLast, hcontains]

theorem isComplete_byLast (metrics : List Metric) (last : Cycle) (e : EndpointName) :
    (byLast metrics (some last) e).isComplete ↔ ∀ m ∈ metrics, ∃ v, last.outcomes e m = .ok v := by
  rw [isComplete, Bool.and_eq_true, byLast, and_iff_right rfl, List.isEmpty_iff,
    List.filter_eq_nil_iff]
  constructor
  · intro h m hm
    have hgood := h m (Metric.mem_all m)
    rw [Bool.and_eq_true, List.contains_iff_mem, and_iff_right hm, Collector.failed_iff] at hgood
    push Not at hgood
    exact hgood
  · intro h m _ hstale
    rw [Bool.and_eq_true, List.contains_iff_mem, Collector.failed_iff] at hstale
    obtain ⟨v, hv⟩ := h m hstale.1
    exact hstale.2 v hv

/-- After a cycle the latest snapshot of an endpoint is that of the cycle. -/
theorem ofView_after (m : Monitor) (past : List Cycle) (last : Cycle) {e : EndpointName}
    (he : e ∈ m.collector.endpoints) :
    ofView (m.after (past ++ [last])).store.view e =
      byLast m.collector.metrics (some last) e := by
  obtain ⟨hendpoints, hmetrics, -⟩ := m.settings_after past
  rw [← hendpoints] at he
  obtain ⟨s, hs, rfl⟩ := (m.after past).collector.exists_snapshot last.stamp last.outcomes he
  have hcurrent := Collector.current?_of_mem hs (m.after past).store
  have hview : (m.after (past ++ [last])).store.view.current.get? s.endpoint = some s := by
    rw [m.after_append]
    exact hcurrent
  have hstale : s.staleMetrics = Metric.all.filter fun n =>
      m.collector.metrics.contains n && Collector.failed last.outcomes (s.endpoint, n) := by
    refine List.filter_congr fun n _ => ?_
    have hmetric := Collector.isStale_of_mem hs n
    rw [hmetrics] at hmetric
    rw [Bool.eq_iff_iff, Bool.and_eq_true, List.contains_iff_mem]
    exact hmetric
  rw [ofView, hview, byLast, ← hstale, ← Collector.timestamp_of_mem hs]

end EndpointHealth

namespace Health

/-- What is to be said of endpoints after a number of cycles. -/
structure Reports (endpoints : List EndpointName) (metrics : List Metric) (cycles : List Cycle)
    (h : Health) : Prop where
  cycles_eq : h.cycles = cycles.length
  starting_iff : h.status = .starting ↔ cycles = []
  ok_iff : h.status = .ok ↔
    ∃ last, cycles.getLast? = some last ∧ Succeeded endpoints metrics last
  degraded_iff : h.status = .degraded ↔
    ∃ last, cycles.getLast? = some last ∧ ¬ Succeeded endpoints metrics last
  endpoints_eq : h.endpoints = endpoints.map (EndpointHealth.byLast metrics cycles.getLast?)

theorem all_isComplete (endpoints : List EndpointName) (metrics : List Metric) (last : Cycle) :
    (endpoints.map (EndpointHealth.byLast metrics (some last))).all (·.isComplete) ↔
      Succeeded endpoints metrics last := by
  simp only [List.all_map, List.all_eq_true, Function.comp_apply,
    EndpointHealth.isComplete_byLast, Succeeded]

theorem reports_of_new {m : Monitor} {endpoints : List EndpointName} {metrics : List Metric}
    (hendpoints : m.collector.endpoints = endpoints)
    (hmetrics : m.collector.metrics = metrics.eraseDups)
    (hcurrent : m.store.current = .empty) (hcycles : m.store.cycles = 0) (cycles : List Cycle) :
    (ofView endpoints (m.after cycles).store.view).Reports endpoints metrics cycles := by
  have hcount : (m.after cycles).store.view.cycles = cycles.length := by
    have h := m.cycles_after cycles
    rwa [hcycles, Nat.zero_add] at h
  rcases List.eq_nil_or_concat cycles with rfl | ⟨past, last, rfl⟩
  · have hstart : (m.after []).store.view = ⟨.empty, m.store.history, 0⟩ := by
      rw [Monitor.after, List.foldl_nil, Store.view, hcurrent, hcycles]
    rw [hstart]
    constructor <;> simp [ofView, EndpointHealth.ofView, EndpointHealth.byLast]
  · rw [List.concat_eq_append] at hcount ⊢
    have hhealths : endpoints.map (EndpointHealth.ofView (m.after (past ++ [last])).store.view) =
        endpoints.map (EndpointHealth.byLast metrics (some last)) := by
      refine List.map_congr_left fun e he => ?_
      rw [← hendpoints] at he
      rw [EndpointHealth.ofView_after m past last he, hmetrics, EndpointHealth.byLast_eraseDups]
    have hstatus := all_isComplete endpoints metrics last
    rw [ofView, hhealths, hcount]
    by_cases hgood : Succeeded endpoints metrics last
    · rw [hstatus.mpr hgood]
      constructor <;> simp [hgood]
    · rw [Bool.eq_false_iff.mpr (mt hstatus.mp hgood)]
      constructor <;> simp [hgood]

end Health

end Export

/-- Whatever happened in earlier cycles and however little history is kept, the
health of an engine is that of its last cycle. -/
theorem health_reports_last_cycle {chance : Source.Chance} {c : Config} {engine : Engine}
    (h : Engine.new chance c = .ok engine) (cycles : List Cycle) (uptime : Float)
    (query : List Char) :
    ∃ health : Export.Health,
      { engine.exporter with uptimeSecs := uptime }.respond (engine.monitor.after cycles).store
        ⟨"GET", "/health".toList, query⟩ = ⟨200, .document (health.toTree uptime)⟩ ∧
      health.WrittenAs uptime (health.toTree uptime) ∧
      health.Reports c.endpointNames c.metrics cycles := by
  have hnew := Engine.isNew_of_new h
  refine ⟨.ofView c.endpointNames (engine.monitor.after cycles).store.view, ?_,
    Export.Health.writtenAs_toTree _ _, ?_⟩
  · rw [Engine.exporter, hnew.config_eq]
    rfl
  · refine Export.Health.reports_of_new hnew.endpoints_eq hnew.collector.metrics_eq ?_ ?_ cycles
    · rw [hnew.store_eq]
    · rw [hnew.store_eq]

/-- A store for one snapshot and two endpoints. The last cycle is good although
everything failed before it. -/
theorem health_reports_last_cycle_of_recovery :
    let c : Config := { Config.demo with historyCapacity := 1, metrics := [.latencyMs, .bytesIn] }
    let bad : Cycle := ⟨10, fun _ _ => .error .timeout⟩
    let good : Cycle := ⟨11, fun _ _ => .ok (.counter 7)⟩
    ∃ engine, Engine.new (Host.chance 0) c = .ok engine ∧ ∃ doc,
      engine.exporter.respond (engine.monitor.after [bad, good]).store
        ⟨"GET", "/health".toList, []⟩ = ⟨200, .document doc⟩ ∧
      doc.at? ["status"] = some (.text "ok") ∧
      ∃ health : Export.Health, health.WrittenAs 0 doc ∧
        health.endpoints = [⟨"server", true, [], some 11⟩, ⟨"client", true, [], some 11⟩] := by
  intro c bad good
  obtain ⟨engine, hengine⟩ : ∃ engine, Engine.new (Host.chance 0) c = .ok engine := ⟨_, rfl⟩
  obtain ⟨health, hanswer, hwritten, hreports⟩ :=
    health_reports_last_cycle hengine [bad, good] 0 []
  have hok : health.status = .ok := hreports.ok_iff.mpr ⟨good, rfl, fun _ _ _ _ => ⟨_, rfl⟩⟩
  have hstatus := hwritten.status
  rw [hok] at hstatus
  exact ⟨engine, hengine, _, hanswer, hstatus, health, hwritten, hreports.endpoints_eq⟩

end LinkTelemetry
