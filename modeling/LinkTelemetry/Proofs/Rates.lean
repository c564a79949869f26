import LinkTelemetry.Proofs.Baseline
import LinkTelemetry.Proofs.FloatSign
import LinkTelemetry.Proofs.Published

/-!
# Rates and zero

A rate is meant to be at zero or above. It is set to zero when time stands
still or the total went down, and otherwise it is a difference that is not
negative over a time that is positive. What this leaves open are two totals
without a difference: one of them is a NaN, or both are the same infinity.
A cycle with such totals is `Incomparable`. Its rate is a NaN, and every
other rate that a run publishes is at zero or above. A NaN does not pass with
its cycle either: it stays behind as the baseline of the next one.

Sources that count in whole numbers never get there, nor do sources of floats
as long as the floats are finite.
-/

namespace LinkTelemetry

theorem zero_le_zero : (0 : Float) ≤ 0 := by decide

section

variable {current previous elapsed : Float}

theorem rate_isNaN (hfinite : elapsed.isFinite) (hpos : 0 < elapsed)
    (hnan : (current - previous).isNaN) : (rate current (some previous) elapsed).isNaN := by
  rw [rate_of_elapsed hfinite hpos, if_neg (Binary64.not_lt_of_sub_isNaN hnan)]
  exact Binary64.div_isNaN_of_isNaN hnan elapsed

theorem zero_le_rate (h : ¬ (elapsed.isFinite ∧ 0 < elapsed ∧ (current - previous).isNaN)) :
    0 ≤ rate current (some previous) elapsed := by
  rw [rate]
  split
  · exact zero_le_zero
  · next htime =>
      rw [Bool.not_eq_true, Bool.not_eq_false', Bool.and_eq_true, decide_eq_true_eq] at htime
      obtain ⟨hfinite, hpos⟩ := htime
      split
      · exact zero_le_zero
      · next hup =>
          exact Binary64.zero_le_sub_div hup (fun hnan => h ⟨hfinite, hpos, hnan⟩) hfinite hpos

end

theorem isFinite_toFloat_of_isFinite {v : Measurement} (h : ∀ x, v = .float x → x.isFinite) :
    v.toFloat.isFinite := by
  cases v with
  | counter n => exact Binary64.isFinite_toFloat n
  | gauge n => exact Binary64.isFinite_toFloat n
  | float x => exact h x rfl

theorem lastGood_eq_some {past : List Cycle} {p : Pair} {last : Baseline}
    (h : lastGood past p = some last) :
    ∃ cycle ∈ past, ∃ v, cycle.outcomes p.1 p.2 = .ok v ∧ last = ⟨v.toFloat, cycle.stamp⟩ := by
  obtain ⟨cycle, hcycle, hgood⟩ := List.mem_filterMap.mp (List.mem_of_getLast? h)
  refine ⟨cycle, hcycle, ?_⟩
  cases hs : cycle.outcomes p.1 p.2 with
  | error cause => rw [hs] at hgood; cases hgood
  | ok v =>
      rw [hs] at hgood
      exact ⟨v, rfl, (Option.some.inj hgood).symm⟩

/-- A cycle whose good total of a pair has no difference from the last one
before it, although time went on in between. -/
def Incomparable (past : List Cycle) (now : Cycle) (p : Pair) : Prop :=
  ∃ v last, now.outcomes p.1 p.2 = .ok v ∧ lastGood past p = some last ∧
    (now.stamp - last.stamp).isFinite ∧ 0 < now.stamp - last.stamp ∧
      (v.toFloat.isNaN ∨ last.value.isNaN ∨ v.toFloat.isInf ∧ (v.toFloat == last.value))

section

variable {past : List Cycle} {now : Cycle} {p : Pair}

theorem rateAfter_isNaN (h : Incomparable past now p) : (rateAfter past now p).isNaN := by
  obtain ⟨v, last, hv, hlast, hfinite, hpos, hnan⟩ := h
  rw [rateAfter, hv, hlast]
  exact rate_isNaN hfinite hpos ((Binary64.sub_isNaN_iff ..).mpr hnan)

theorem zero_le_rateAfter (h : ¬ Incomparable past now p) : 0 ≤ rateAfter past now p := by
  rw [rateAfter]
  split
  · next v last hv hlast =>
      refine zero_le_rate fun ⟨hfinite, hpos, hnan⟩ => h ?_
      exact ⟨v, last, hv, hlast, hfinite, hpos, (Binary64.sub_isNaN_iff ..).mp hnan⟩
  · exact zero_le_zero

theorem not_rateAfter_lt_zero (past : List Cycle) (now : Cycle) (p : Pair) :
    ¬ rateAfter past now p < 0 := by
  by_cases h : Incomparable past now p
  · exact Binary64.not_lt_zero_of_isNaN (rateAfter_isNaN h)
  · exact Binary64.not_lt_zero_of_zero_le (zero_le_rateAfter h)

/-- Finite totals can always be compared. -/
theorem not_incomparable_of_finite
    (h : ∀ cycle ∈ past ++ [now], ∀ x, cycle.outcomes p.1 p.2 = .ok (.float x) → x.isFinite) :
    ¬ Incomparable past now p := by
  rintro ⟨v, last, hv, hlast, -, -, hnan⟩
  obtain ⟨cycle, hcycle, w, hw, rfl⟩ := lastGood_eq_some hlast
  have hvfinite : v.toFloat.isFinite := by
    refine isFinite_toFloat_of_isFinite fun x hx => h now ?_ x (hx ▸ hv)
    exact List.mem_append_right _ List.mem_cons_self
  have hwfinite : w.toFloat.isFinite := by
    refine isFinite_toFloat_of_isFinite fun x hx => h cycle ?_ x (hx ▸ hw)
    exact List.mem_append_left _ hcycle
  rcases hnan with hnan | hnan | ⟨hinf, -⟩
  · exact Binary64.not_isNaN_of_isFinite hvfinite hnan
  · exact Binary64.not_isNaN_of_isFinite hwfinite hnan
  · exact Binary64.not_isInf_of_isFinite hvfinite hinf

end

namespace Monitor

/-- The baselines of a run that began without any. -/
theorem baselines_after_new {m : Monitor} (hnew : m.collector.baselines = .empty)
    (cycles : List Cycle) (p : Pair) :
    (m.after cycles).collector.baselines.get? p =
      if p ∈ m.collector.pairs ∧ p.2.isCounter then lastGood cycles p else none := by
  have hnone : m.collector.baseline? p.1 p.2 = none := by
    rw [Collector.baseline?, hnew, PairMap.get?_empty]
  have h := m.baseline?_after cycles p.1 p.2
  rw [hnone, Option.or_none] at h
  exact h

/-- The rates that a cycle of such a run publishes. -/
theorem rate?_of_mem {m : Monitor} (hnew : m.collector.baselines = .empty) {past : List Cycle}
    {now : Cycle} {s : Snapshot}
    (hs : s ∈ (m.after past).collector.snapshots now.stamp now.outcomes) (metric : Metric) :
    s.rate? metric = if metric ∈ (m.after past).collector.metrics ∧ metric.isCounter then
      some (rateAfter past now (s.endpoint, metric)) else none := by
  have hrate : s.rate? metric = (s.cell metric).rate := rfl
  rw [hrate, Collector.cell_of_mem hs]
  by_cases hmetric : metric ∈ (m.after past).collector.metrics
  · have hp : (s.endpoint, metric) ∈ m.collector.pairs := by
      rw [← m.pairs_after past]
      exact (Collector.mem_pairs ..).mpr ⟨Collector.endpoint_mem_of_mem hs, hmetric⟩
    rw [if_pos hmetric, baselines_after_new hnew, Sample.rate_cell, rateAfter]
    by_cases hcounter : metric.isCounter
    · rw [if_pos hcounter, if_pos ⟨hp, hcounter⟩]
      exact (if_pos ⟨hmetric, hcounter⟩).symm
    · rw [if_neg hcounter, if_neg fun h => hcounter h.2]
  · rw [if_neg hmetric, if_neg fun h => hmetric h.1]

theorem rate_of_mem {m : Monitor} (hnew : m.collector.baselines = .empty) {past : List Cycle}
    {now : Cycle} {s : Snapshot}
    (hs : s ∈ (m.after past).collector.snapshots now.stamp now.outcomes) {metric : Metric}
    {r : Float} (hr : s.rate? metric = some r) :
    (s.endpoint, metric) ∈ m.collector.pairs ∧ metric.isCounter ∧
      r = rateAfter past now (s.endpoint, metric) := by
  rw [rate?_of_mem hnew hs] at hr
  split at hr
  · next h =>
      refine ⟨?_, h.2, (Option.some.inj hr).symm⟩
      rw [← m.pairs_after past]
      exact (Collector.mem_pairs ..).mpr ⟨Collector.endpoint_mem_of_mem hs, h.1⟩
  · cases hr

end Monitor

/-- No answer of any source makes a rate that is below zero, and a rate is at
zero or above unless its totals cannot be compared. With sources whose floats
are finite every rate is. -/
theorem published_rates_nonneg {endpoints : List EndpointName} {metrics : List Metric}
    {interval timeout : Option Nat} {c : Collector}
    (hc : Collector.timed endpoints metrics interval timeout = .ok c) {capacity : Nat}
    (hcapacity : 0 < capacity) :
    ∃ start, Monitor.new capacity (.ok c) = .ok start ∧ ∀ cycles : List Cycle,
      (∀ s ∈ (start.after cycles).store.history, ∀ m r, s.rate? m = some r →
        ¬ r < 0 ∧ ∃ past now rest, cycles = past ++ now :: rest ∧
          s ∈ (start.after past).collector.snapshots now.stamp now.outcomes ∧
          r = rateAfter past now (s.endpoint, m) ∧
          (0 ≤ r ↔ ¬ Incomparable past now (s.endpoint, m)) ∧
          (r.isNaN ↔ Incomparable past now (s.endpoint, m))) ∧
      ((∀ cycle ∈ cycles, ∀ p ∈ c.pairs, p.2.isCounter → ∀ x,
          cycle.outcomes p.1 p.2 = .ok (.float x) → x.isFinite) →
        ∀ s ∈ (start.after cycles).store.history, ∀ m r, s.rate? m = some r → 0 ≤ r) := by
  refine ⟨_, Monitor.new_eq hcapacity c, fun cycles => ?_⟩
  have hnew := (Collector.isNew_of_timed hc).baselines_eq
  have hstore := Store.Holds.new capacity
  constructor
  · intro s hs m r hr
    obtain ⟨past, now, rest, hcycles, hbatch⟩ :=
      Monitor.mem_snapshots_of_mem_history hcapacity hstore hs
    obtain ⟨-, -, rfl⟩ := Monitor.rate_of_mem hnew hbatch hr
    refine ⟨not_rateAfter_lt_zero _ _ _, past, now, rest, hcycles, hbatch, rfl, ?_, ?_⟩
    · refine ⟨fun hle h => ?_, zero_le_rateAfter⟩
      exact Binary64.not_zero_le_of_isNaN (rateAfter_isNaN h) hle
    · refine ⟨fun hnan => ?_, rateAfter_isNaN⟩
      by_contra h
      exact Binary64.not_zero_le_of_isNaN hnan (zero_le_rateAfter h)
  · intro hfinite s hs m r hr
    obtain ⟨past, now, rest, rfl, hbatch⟩ :=
      Monitor.mem_snapshots_of_mem_history hcapacity hstore hs
    obtain ⟨hp, hm, rfl⟩ := Monitor.rate_of_mem hnew hbatch hr
    refine zero_le_rateAfter (not_incomparable_of_finite fun cycle hcycle x hx => ?_)
    refine hfinite cycle ?_ _ hp hm x hx
    rw [List.append_cons]
    exact List.mem_append_left _ hcycle

/-- A counter that grows by a thousand in a second, as a whole number and
then as a float. -/
theorem published_rates_nonneg_of_growth :
    ∃ c, Collector.timed ["server"] [.bytesIn] none none = .ok c ∧ 0 < 10 ∧
      ∃ start, Monitor.new 10 (.ok c) = .ok start ∧
        let cycles : List Cycle := [⟨100, fun _ _ => .ok (.counter 1000)⟩,
          ⟨101, fun _ _ => .ok (.float 2000)⟩]
        ∀ s ∈ (start.after cycles).store.history, ∀ m r, s.rate? m = some r → 0 ≤ r := by
  obtain ⟨c, hc⟩ : ∃ c, Collector.timed ["server"] [.bytesIn] none none = .ok c := ⟨_, rfl⟩
  obtain ⟨start, hstart, h⟩ := published_rates_nonneg hc (show 0 < 10 by decide)
  refine ⟨c, hc, by decide, start, hstart, (h _).2 ?_⟩
  intro cycle hcycle p _ _ x hx
  rcases List.mem_cons.mp hcycle with rfl | hcycle
  · cases hx
  · rw [List.mem_singleton.mp hcycle] at hx
    cases hx
    decide

/-- A NaN between two whole numbers. Two rates of the history are not at zero
or above, that of its own cycle and that of the next one. -/
theorem published_rates_of_nan_total :
    ∃ start, Monitor.new 10 (Collector.timed ["server"] [.bytesIn] none none) = .ok start ∧
      let cycles : List Cycle := [⟨100, fun _ _ => .ok (.counter 1000)⟩,
        ⟨101, fun _ _ => .ok (.float (0 / 0))⟩, ⟨102, fun _ _ => .ok (.counter 3000)⟩]
      ((start.after cycles).store.history.filter fun s =>
        (s.rate? .bytesIn).any fun r => !decide (0 ≤ r)).map (·.timestamp) = [101, 102] := by
  refine ⟨_, rfl, ?_⟩
  decide +kernel

end LinkTelemetry
