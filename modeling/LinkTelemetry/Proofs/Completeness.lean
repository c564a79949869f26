import LinkTelemetry.Collector.Timing
import LinkTelemetry.Proofs.Published

/-!
# Every cycle is complete

A cycle asks one question for every endpoint and every metric, the answers
come back as one list, and from the list snapshots are put together. Here is
what must not happen on the way: that an answer gets lost, stands twice, or
ends up in a place that is not its own. Whatever the sources do, a cycle
publishes one snapshot for each endpoint, and each snapshot has an entry for
each metric, from the reply to that very question.
-/

namespace LinkTelemetry

/-- The elements of a list in the order in which they first occur. -/
structure FirstOccurrences {α : Type} [BEq α] (l firsts : List α) : Prop where
  mem_iff : ∀ a, a ∈ firsts ↔ a ∈ l
  ordered : firsts.Pairwise fun a b => l.idxOf a < l.idxOf b

theorem firstOccurrences_eraseDups {α : Type} [BEq α] [LawfulBEq α] (l : List α) :
    FirstOccurrences l l.eraseDups where
  mem_iff a := List.mem_eraseDups
  ordered := by
    induction l using List.reverseRecOn with
    | nil => exact List.Pairwise.nil
    | append_singleton l x ih =>
        have hkeep : l.eraseDups.Pairwise fun a b => (l ++ [x]).idxOf a < (l ++ [x]).idxOf b := by
          refine ih.imp_of_mem fun ha hb hlt => ?_
          rw [List.idxOf_append_of_mem (List.mem_eraseDups.mp ha),
            List.idxOf_append_of_mem (List.mem_eraseDups.mp hb)]
          exact hlt
        rw [List.eraseDups_append]
        by_cases hx : x ∈ l
        · have hnone : [x].removeAll l = [] := by simp [List.removeAll, hx]
          rw [hnone, List.eraseDups_nil, List.append_nil]
          exact hkeep
        · have hone : [x].removeAll l = [x] := by simp [List.removeAll, hx]
          rw [hone, List.eraseDups_cons, List.filter_nil, List.eraseDups_nil, List.pairwise_append]
          refine ⟨hkeep, List.pairwise_singleton _ _, fun a ha b hb => ?_⟩
          rw [List.mem_singleton.mp hb, List.idxOf_append_of_mem (List.mem_eraseDups.mp ha),
            List.idxOf_append_of_notMem hx]
          have := List.idxOf_lt_length_of_mem (List.mem_eraseDups.mp ha)
          omega

/-- A reply that brings a measurement before its deadline. -/
def Reply.Gives (timeoutMs : Nat) (v : Measurement) (r : Reply) : Prop :=
  r.answer = .ok v ∧ ∃ delay, r.delayMs = some delay ∧ delay ≤ timeoutMs

theorem Reply.outcome_eq_ok_iff (timeoutMs : Nat) (v : Measurement) (r : Reply) :
    r.outcome timeoutMs = .ok v ↔ r.Gives timeoutMs v := by
  rw [outcome, Gives]
  cases r.delayMs with
  | none => simp
  | some delay =>
      by_cases h : timeoutMs < delay
      · simp [h]
      · simp [h, Nat.le_of_not_lt h]

namespace Snapshot

/-- What a snapshot shows of the replies to the questions about its endpoint. -/
structure Shows (s : Snapshot) (stamp : Float) (metrics : List Metric) (timeoutMs : Nat)
    (reply : Metric → Reply) : Prop where
  timestamp_eq : s.timestamp = stamp
  mem_values : ∀ m, m ∈ s.values.keys ↔ m ∈ metrics
  mem_rates : ∀ m, m ∈ s.rates.keys ↔ m ∈ metrics ∧ m.isCounter
  mem_stale : ∀ m, m ∈ s.staleMetrics ↔ m ∈ metrics ∧ ∀ v, ¬ (reply m).Gives timeoutMs v
  of_stale : ∀ m ∈ s.staleMetrics, s.value? m = some 0 ∧ (m.isCounter → s.rate? m = some 0)
  of_not_stale : ∀ m ∈ metrics, m ∉ s.staleMetrics →
    ∃ v, (reply m).Gives timeoutMs v ∧ s.value? m = some v.toFloat

/-- A snapshot with an entry for each metric of a list. -/
structure Covers (s : Snapshot) (metrics : List Metric) : Prop where
  value_iff : ∀ m, (s.value? m).isSome ↔ m ∈ metrics
  rate_iff : ∀ m, (s.rate? m).isSome ↔ m ∈ metrics ∧ m.isCounter
  of_isStale : ∀ m, s.isStale m → m ∈ metrics

theorem mem_keys_values (s : Snapshot) (m : Metric) :
    m ∈ s.values.keys ↔ (s.cell m).value.isSome := MetricMap.mem_keys ..

theorem mem_keys_rates (s : Snapshot) (m : Metric) :
    m ∈ s.rates.keys ↔ (s.cell m).rate.isSome := MetricMap.mem_keys ..

theorem mem_staleMetrics (s : Snapshot) (m : Metric) :
    m ∈ s.staleMetrics ↔ (s.cell m).stale := MetricMap.mem_keys ..

end Snapshot

section

variable (m : Metric) (stamp : Float) (previous : Option Baseline) (sample : Sample)

theorem Sample.isSome_value_cell : (sample.cell m stamp previous).value.isSome := by
  cases sample <;> rfl

theorem Sample.isSome_rate_cell :
    (sample.cell m stamp previous).rate.isSome = m.isCounter := by
  cases sample <;> cases h : m.isCounter <;> simp [Sample.cell, h]

theorem Sample.stale_cell : (sample.cell m stamp previous).stale ↔ ∀ v, sample ≠ .ok v := by
  cases sample with
  | ok v => simp [Sample.cell]
  | error cause => simp [Sample.cell]

end

theorem Collector.covers_of_mem {c : Collector} {stamp : Float} {outcomes : Outcomes}
    {s : Snapshot} (hs : s ∈ c.snapshots stamp outcomes) : s.Covers c.metrics := by
  have hcell := Collector.cell_of_mem hs
  exact {
    value_iff := by
      intro m
      show (s.cell m).value.isSome ↔ _
      rw [hcell]
      split
      · next hm => exact iff_of_true (Sample.isSome_value_cell ..) hm
      · next hm => exact iff_of_false Bool.false_ne_true hm
    rate_iff := by
      intro m
      show (s.cell m).rate.isSome ↔ _
      rw [hcell]
      split
      · next hm => rw [Sample.isSome_rate_cell, and_iff_right hm]
      · next hm => exact iff_of_false Bool.false_ne_true fun h => hm h.1
    of_isStale := by
      intro m
      show (s.cell m).stale → _
      rw [hcell]
      split
      · next hm => exact fun _ => hm
      · exact fun h => absurd h Bool.false_ne_true }

theorem Collector.shows_of_mem {c : Collector} {stamp : Float} {replies : Replies} {s : Snapshot}
    (hs : s ∈ c.snapshots stamp (c.outcomes replies)) :
    s.Shows stamp c.metrics c.timeoutMs (replies s.endpoint) := by
  have hcell := Collector.cell_of_mem hs
  have hcovers := Collector.covers_of_mem hs
  have hstale : ∀ m, m ∈ s.staleMetrics ↔
      m ∈ c.metrics ∧ ∀ v, ¬ (replies s.endpoint m).Gives c.timeoutMs v := by
    intro m
    rw [Snapshot.mem_staleMetrics, hcell]
    split
    · next hm =>
        rw [Sample.stale_cell, and_iff_right hm]
        refine forall_congr' fun v => not_congr ?_
        exact Reply.outcome_eq_ok_iff ..
    · next hm => exact ⟨fun h => absurd h Bool.false_ne_true, fun h => absurd h.1 hm⟩
  exact {
    timestamp_eq := Collector.timestamp_of_mem hs
    mem_values := by
      intro m
      rw [Snapshot.mem_keys_values]
      exact hcovers.value_iff m
    mem_rates := by
      intro m
      rw [Snapshot.mem_keys_rates]
      exact hcovers.rate_iff m
    mem_stale := hstale
    of_stale := by
      intro m hm
      obtain ⟨hpolled, hnone⟩ := (hstale m).mp hm
      have hshown : s.cell m = _ := (hcell m).trans (if_pos hpolled)
      cases hsample : c.outcomes replies s.endpoint m with
      | ok v => exact absurd ((Reply.outcome_eq_ok_iff ..).mp hsample) (hnone v)
      | error cause =>
          rw [hsample, Sample.cell] at hshown
          refine ⟨congrArg Snapshot.Cell.value hshown, fun hcounter => ?_⟩
          rw [if_pos hcounter] at hshown
          exact congrArg Snapshot.Cell.rate hshown
    of_not_stale := by
      intro m hpolled hm
      have hshown : s.cell m = _ := (hcell m).trans (if_pos hpolled)
      cases hsample : c.outcomes replies s.endpoint m with
      | error cause =>
          refine absurd ((hstale m).mpr ⟨hpolled, fun v hv => ?_⟩) hm
          have hok := hsample.symm.trans ((Reply.outcome_eq_ok_iff ..).mpr hv)
          cases hok
      | ok v =>
          rw [hsample, Sample.cell] at hshown
          exact ⟨v, (Reply.outcome_eq_ok_iff ..).mp hsample, congrArg Snapshot.Cell.value hshown⟩ }

/-- A collector polls what it was given, without repetitions, and each of its
cycles publishes one snapshot for each endpoint with an entry for each metric. -/
theorem cycle_complete {endpoints : List EndpointName} {metrics : List Metric}
    {interval timeout : Option Nat} {c : Collector}
    (hc : Collector.timed endpoints metrics interval timeout = .ok c)
    (store : Store) (log : List LogLine) :
    FirstOccurrences endpoints c.endpoints ∧ FirstOccurrences metrics c.metrics ∧
    ∀ (past : List Cycle) (stamp : Float) (replies : Replies),
      let before := Monitor.after ⟨c, store, log⟩ past
      let now := before.cycle stamp (before.collector.outcomes replies)
      ∃ batch, now.store = before.store.publishCycle batch ∧
        batch.map (·.endpoint) = c.endpoints ∧
        ∀ s ∈ batch, now.store.current? s.endpoint = some s ∧
          s.Shows stamp c.metrics c.timeoutMs (replies s.endpoint) := by
  have hnew := Collector.isNew_of_timed hc
  rw [hnew.endpoints_eq, hnew.metrics_eq]
  refine ⟨firstOccurrences_eraseDups _, firstOccurrences_eraseDups _, ?_⟩
  intro past stamp replies before now
  obtain ⟨hendpoints, hmetrics, htimeout⟩ := Monitor.settings_after ⟨c, store, log⟩ past
  refine ⟨before.collector.snapshots stamp (before.collector.outcomes replies), rfl, ?_, ?_⟩
  · rw [Collector.endpoint_snapshots, ← hnew.endpoints_eq]
    exact hendpoints
  · intro s hs
    have hshows := Collector.shows_of_mem hs
    rw [hmetrics, htimeout, hnew.metrics_eq] at hshows
    exact ⟨Collector.current?_of_mem hs before.store, hshows⟩

/-- Of two endpoints one answers at the last moment, and the other too late
or with an error. -/
theorem cycle_complete_of_late_replies :
    ∃ c, Collector.timed ["a", "b", "a"] [.latencyMs, .bytesIn, .latencyMs] none (some 50) =
        .ok c ∧ c.endpoints = ["a", "b"] ∧ c.metrics = [.latencyMs, .bytesIn] ∧
      let replies : Replies := fun e m =>
        if e = "a" then ⟨.ok (.counter 7), some 50⟩
        else if m = .bytesIn then ⟨.ok (.counter 7), some 51⟩ else ⟨.error .timeout, some 0⟩
      ∀ store log, ∃ batch,
        ((⟨c, store, log⟩ : Monitor).cycle 10 (c.outcomes replies)).store =
          store.publishCycle batch ∧ batch.map (·.endpoint) = ["a", "b"] ∧
        ∀ s ∈ batch, s.Shows 10 [.latencyMs, .bytesIn] 50 (replies s.endpoint) := by
  refine ⟨_, rfl, rfl, rfl, fun store log => ?_⟩
  obtain ⟨-, -, h⟩ := @cycle_complete ["a", "b", "a"] [.latencyMs, .bytesIn, .latencyMs] none
    (some 50) _ rfl store log
  obtain ⟨batch, hstore, hendpoints, hshows⟩ := h [] 10 _
  exact ⟨batch, hstore, hendpoints, fun s hs => (hshows s hs).2⟩

end LinkTelemetry
