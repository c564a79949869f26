import LinkTelemetry.Config.Validation
import LinkTelemetry.PairMap
import LinkTelemetry.Rate

/-!
# The collector

The collector asks for every metric of every endpoint, cycle after cycle. It
keeps the baselines of the counters, which only good samples move, and the
pairs whose last sample failed, so that a failure is reported once and not
with every cycle. No endpoint and no metric is polled twice in a cycle: what
occurs again in the lists that a collector is made from does not count.
-/

namespace LinkTelemetry

theorem nodup_eraseDups {α : Type} [BEq α] [LawfulBEq α] :
    ∀ l : List α, l.eraseDups.Nodup
  | [] => by simp
  | a :: rest => by
      have hrest := nodup_eraseDups (rest.filter fun b => !b == a)
      rw [List.eraseDups_cons, List.nodup_cons]
      refine ⟨?_, hrest⟩
      simp [List.mem_eraseDups]
termination_by l => l.length
decreasing_by
  simp only [List.length_cons, Nat.lt_succ_iff]
  exact List.length_filter_le ..

theorem eraseDups_ne_nil {α : Type} [BEq α] {l : List α} (h : l ≠ []) : l.eraseDups ≠ [] := by
  cases l with
  | nil => exact absurd rfl h
  | cons a rest => simp [List.eraseDups_cons]

structure Collector where
  endpoints : List EndpointName
  metrics : List Metric
  intervalMs : Nat := 1000
  timeoutMs : Nat := 1000
  /-- The last good totals of the counters. -/
  baselines : PairMap Baseline := .empty
  /-- The pairs whose last sample failed. -/
  failing : List Pair := []
  endpoints_ne_nil : endpoints ≠ []
  metrics_ne_nil : metrics ≠ []
  endpoints_nodup : endpoints.Nodup
  metrics_nodup : metrics.Nodup
  interval_pos : 0 < intervalMs := by decide

namespace Collector

/-- A collector for the endpoints and metrics of two lists that are not
empty; what occurs again in them does not count. -/
def new (endpoints : List EndpointName) (metrics : List Metric) : Except ConfigError Collector :=
  if he : endpoints = [] then .error .noEndpoints
  else if hm : metrics = [] then .error .noMetrics
  else .ok
    { endpoints := endpoints.eraseDups
      metrics := metrics.eraseDups
      endpoints_ne_nil := eraseDups_ne_nil he
      metrics_ne_nil := eraseDups_ne_nil hm
      endpoints_nodup := nodup_eraseDups endpoints
      metrics_nodup := nodup_eraseDups metrics }

def withInterval (c : Collector) (ms : Nat) : Except ConfigError Collector :=
  if h : ms = 0 then .error .zeroInterval
  else .ok { c with intervalMs := ms, interval_pos := Nat.pos_of_ne_zero h }

def withTimeout (c : Collector) (ms : Nat) : Except ConfigError Collector :=
  if ms = 0 then .error .zeroTimeout else .ok { c with timeoutMs := ms }

/-- A collector with times of its own, where they are given. -/
def timed (endpoints : List EndpointName) (metrics : List Metric)
    (intervalMs timeoutMs : Option Nat) : Except ConfigError Collector := do
  let c ← new endpoints metrics
  let c ← c.withInterval (intervalMs.getD c.intervalMs)
  c.withTimeout (timeoutMs.getD c.timeoutMs)

/-- A collector for given lists with no cycle behind it. -/
structure IsNew (endpoints : List EndpointName) (metrics : List Metric) (c : Collector) :
    Prop where
  endpoints_eq : c.endpoints = endpoints.eraseDups
  metrics_eq : c.metrics = metrics.eraseDups
  baselines_eq : c.baselines = .empty
  failing_eq : c.failing = []

theorem isNew_of_new {endpoints : List EndpointName} {metrics : List Metric} {c : Collector}
    (h : new endpoints metrics = .ok c) : c.IsNew endpoints metrics := by
  rw [new] at h
  split at h
  · cases h
  · split at h
    · cases h
    · cases h
      exact ⟨rfl, rfl, rfl, rfl⟩

theorem IsNew.withInterval {endpoints : List EndpointName} {metrics : List Metric}
    {c c' : Collector} {ms : Nat} (hc : c.IsNew endpoints metrics)
    (h : c.withInterval ms = .ok c') : c'.IsNew endpoints metrics := by
  rw [Collector.withInterval] at h
  split at h
  · cases h
  · cases h
    exact ⟨hc.endpoints_eq, hc.metrics_eq, hc.baselines_eq, hc.failing_eq⟩

theorem IsNew.withTimeout {endpoints : List EndpointName} {metrics : List Metric}
    {c c' : Collector} {ms : Nat} (hc : c.IsNew endpoints metrics)
    (h : c.withTimeout ms = .ok c') : c'.IsNew endpoints metrics := by
  rw [Collector.withTimeout] at h
  split at h
  · cases h
  · cases h
    exact ⟨hc.endpoints_eq, hc.metrics_eq, hc.baselines_eq, hc.failing_eq⟩

theorem isNew_of_timed {endpoints : List EndpointName} {metrics : List Metric}
    {intervalMs timeoutMs : Option Nat} {c : Collector}
    (h : timed endpoints metrics intervalMs timeoutMs = .ok c) : c.IsNew endpoints metrics := by
  rw [timed] at h
  cases hnew : new endpoints metrics with
  | error e => rw [hnew] at h; cases h
  | ok c₁ =>
      rw [hnew] at h
      cases hinterval : c₁.withInterval (intervalMs.getD c₁.intervalMs) with
      | error e => simp only [bind, Except.bind, hinterval] at h; cases h
      | ok c₂ =>
          simp only [bind, Except.bind, hinterval] at h
          exact ((isNew_of_new hnew).withInterval hinterval).withTimeout h

/-- The collector of a valid configuration. -/
def ofConfig (config : Config) : Except ConfigError Collector := do
  config.validate
  timed config.endpointNames config.metrics config.intervalMs.toNat config.sampleTimeoutMs.toNat

/-- The pairs that are polled, endpoint by endpoint. -/
def pairs (c : Collector) : List Pair :=
  c.endpoints.flatMap fun e => c.metrics.map fun m => (e, m)

theorem mem_pairs (c : Collector) (p : Pair) :
    p ∈ c.pairs ↔ p.1 ∈ c.endpoints ∧ p.2 ∈ c.metrics := by
  obtain ⟨e, m⟩ := p
  simp [pairs]

theorem pairs_ne_nil (c : Collector) : c.pairs ≠ [] := by
  obtain ⟨e, he⟩ := List.exists_mem_of_ne_nil _ c.endpoints_ne_nil
  obtain ⟨m, hm⟩ := List.exists_mem_of_ne_nil _ c.metrics_ne_nil
  exact List.ne_nil_of_mem ((c.mem_pairs (e, m)).mpr ⟨he, hm⟩)

/-- The last good total of a counter. -/
def baseline? (c : Collector) (e : EndpointName) (m : Metric) : Option Baseline :=
  c.baselines.get? (e, m)

/-- Whether the last sample of a pair failed. -/
def isFailing (c : Collector) (p : Pair) : Bool := c.failing.contains p

end Collector

end LinkTelemetry
