import LinkTelemetry.Proofs.Completeness
import LinkTelemetry.Proofs.Records
import LinkTelemetry.Proofs.Tables

/-!
# When a snapshot means what it says

The fields of a snapshot have a meaning: rates are for counters, and a mark is
for a value that is the zero of a failed sample. Snapshots are built by calls,
and a call writes down what it is given. It asks neither for the kind of its
metric nor for what was recorded before, so the meaning depends on the calls.

What can be read of a metric in the end is what was recorded of it last, except
for the mark, which stays (`value?_built`, `rate?_built`, `isStale_built`). From
this it follows which calls leave a snapshot that is `Faithful`: those that give
no gauge a rate, and after which a marked metric is left with zeros. Calls that
record nothing more of a metric once its sample failed are of this kind, and so
are the calls of a collector, which are one for each metric.
-/

namespace LinkTelemetry

namespace Snapshot

/-- A snapshot whose fields hold what they are for. -/
structure Faithful (s : Snapshot) : Prop where
  value?_of_isStale : ∀ m, s.isStale m → s.value? m = some 0
  rate?_of_isStale : ∀ m, s.isStale m → m.isCounter → s.rate? m = some 0
  isCounter_of_rate? : ∀ m, (s.rate? m).isSome → m.isCounter
  isSome_value? : ∀ m, (s.rate? m).isSome ∨ s.isStale m → (s.value? m).isSome

/-! ## Which calls leave a meaning -/

/-- The last word on a metric with a failed sample is zero, and only counters
get a rate. -/
structure Settled (records : List Record) : Prop where
  isCounter : ∀ m total rate, .counter m total rate ∈ records → m.isCounter
  level : ∀ m, .stale m ∈ records → (records.filterMap (·.level? m)).getLast? = some 0
  rate : ∀ m, .stale m ∈ records → m.isCounter →
    (records.filterMap (·.rate? m)).getLast? = some 0

/-- Once the sample of a metric failed, nothing else is recorded of it. -/
structure Orderly (records : List Record) : Prop where
  isCounter : ∀ m total rate, .counter m total rate ∈ records → m.isCounter
  final : records.Pairwise fun r r' => ∀ m, r = .stale m → r'.metric = m → r' = .stale m

variable {e : EndpointName} {stamp : Float} {records : List Record}

theorem Orderly.settled (h : Orderly records) : Settled records := by
  have hsplit : ∀ m, .stale m ∈ records → ∃ before after, records = before ++ .stale m :: after ∧
      ∀ r ∈ after, r.metric = m → r = .stale m := by
    intro m hm
    obtain ⟨before, after, rfl⟩ := List.append_of_mem hm
    have hfinal := (List.pairwise_cons.mp (List.pairwise_append.mp h.final).2.1).1
    exact ⟨before, after, rfl, fun r hr => hfinal r hr m rfl⟩
  refine ⟨h.isCounter, fun m hm => ?_, fun m hm hcounter => ?_⟩
  · obtain ⟨before, after, rfl, hafter⟩ := hsplit m hm
    refine getLast?_filterMap_of_repeated (if_pos rfl) fun r hr x hx => ?_
    rw [hafter r hr (Record.isSome_level?_iff.mp (hx ▸ rfl)), Record.level?, if_pos rfl] at hx
    exact (Option.some.inj hx).symm
  · obtain ⟨before, after, rfl, hafter⟩ := hsplit m hm
    refine getLast?_filterMap_of_repeated (if_pos ⟨rfl, hcounter⟩) fun r hr x hx => ?_
    rw [hafter r hr (Record.metric_of_rate? (hx ▸ rfl)), Record.rate?,
      if_pos ⟨rfl, hcounter⟩] at hx
    exact (Option.some.inj hx).symm

theorem faithful_built_iff :
    (records.foldl record (start e stamp)).Faithful ↔ Settled records := by
  constructor
  · intro h
    refine ⟨fun m total rate hr => h.isCounter_of_rate? m ?_, fun m hm => ?_,
      fun m hm hcounter => ?_⟩
    · rw [rate?_built, isSome_getLast?_filterMap]
      exact ⟨_, hr, by rw [Record.rate?, if_pos rfl]; rfl⟩
    · rw [← value?_built e stamp]
      exact h.value?_of_isStale m ((isStale_built e stamp records m).mpr hm)
    · rw [← rate?_built e stamp]
      exact h.rate?_of_isStale m ((isStale_built e stamp records m).mpr hm) hcounter
  · intro h
    refine ⟨fun m hm => ?_, fun m hm hcounter => ?_, fun m hm => ?_, fun m hm => ?_⟩
    · rw [value?_built]
      exact h.level m ((isStale_built e stamp records m).mp hm)
    · rw [rate?_built]
      exact h.rate m ((isStale_built e stamp records m).mp hm) hcounter
    · rw [rate?_built, isSome_getLast?_filterMap] at hm
      obtain ⟨r, hr, hrate⟩ := hm
      obtain ⟨total, rate, rfl⟩ | ⟨-, hcounter⟩ := Record.eq_of_rate? hrate
      · exact h.isCounter m total rate hr
      · exact hcounter
    · exact isSome_value?_built hm

/-- Whatever the calls, a rate or a mark comes with a value. The fields hold
what they are for exactly where the last word on a failed metric is zero and no
gauge got a rate, as where nothing is recorded of a metric that failed. -/
theorem calls_decide_meaning (e : EndpointName) (stamp : Float) (records : List Record) :
    let s := records.foldl record (start e stamp)
    (∀ m, (s.rate? m).isSome ∨ s.isStale m → (s.value? m).isSome) ∧
      (s.Faithful ↔ Settled records) ∧ (Orderly records → s.Faithful) := by
  intro s
  exact ⟨fun m hm => isSome_value?_built hm, faithful_built_iff,
    fun h => faithful_built_iff.mpr h.settled⟩

theorem calls_decide_meaning_of_three :
    Orderly [.counter .bytesIn 1500 500, .stale .bytesOut, .value .cpuPercent 12] ∧
      ([Record.counter .bytesIn 1500 500, .stale .bytesOut, .value .cpuPercent 12].foldl record
        (start "client" 1700000000)).Faithful := by
  have horderly :
      Orderly [.counter .bytesIn 1500 500, .stale .bytesOut, .value .cpuPercent 12] := by
    refine ⟨fun m total rate hmem => ?_, by simp [Record.metric]⟩
    obtain ⟨rfl, -, -⟩ : m = .bytesIn ∧ total = 1500 ∧ rate = 500 := by simpa using hmem
    rfl
  exact ⟨horderly, (calls_decide_meaning _ _ _).2.2 horderly⟩

/-- A gauge that is recorded as a counter shows a rate, and a value that is
recorded after a failed sample stays marked. -/
theorem unsettled_calls_mislead :
    let rated := [Record.counter .cpuPercent 12 3].foldl record (start "server" 1)
    let marked := [Record.stale .bytesIn, .value .bytesIn 12].foldl record (start "server" 1)
    (rated.rate? .cpuPercent = some 3 ∧ ¬ rated.Faithful) ∧
      marked.isStale .bytesIn ∧ marked.value? .bytesIn = some 12 ∧ ¬ marked.Faithful := by
  refine ⟨⟨rfl, fun h => ?_⟩, rfl, rfl, fun h => ?_⟩
  · have hcounter := h.isCounter_of_rate? .cpuPercent rfl
    cases hcounter
  · have hzero := h.value?_of_isStale .bytesIn rfl
    exact absurd hzero (by decide)

end Snapshot

namespace Collector

variable {c : Collector} {stamp : Float} {outcomes : Outcomes} {s : Snapshot}

/-- A collector records once for each metric, and by its kind. -/
theorem faithful_of_mem (hs : s ∈ c.snapshots stamp outcomes) : s.Faithful := by
  have hcovers := covers_of_mem hs
  have hmark : ∀ m, s.isStale m →
      s.cell m = ⟨some 0, if m.isCounter then some 0 else none, true⟩ := by
    intro m hm
    have hcell := cell_of_mem hs m
    rw [if_pos (hcovers.of_isStale m hm)] at hcell
    cases hsample : outcomes s.endpoint m with
    | ok v =>
        rw [hsample] at hcell
        have hfresh : s.isStale m = false := congrArg Snapshot.Cell.stale hcell
        rw [hfresh] at hm
        cases hm
    | error cause => rw [hcell, hsample, Sample.cell]
  refine ⟨fun m hm => ?_, fun m hm hcounter => ?_, fun m hm => ?_, fun m hm => ?_⟩
  · exact congrArg Snapshot.Cell.value (hmark m hm)
  · have hrate := congrArg Snapshot.Cell.rate (hmark m hm)
    rwa [if_pos hcounter] at hrate
  · exact ((hcovers.rate_iff m).mp hm).2
  · have hpolled : m ∈ c.metrics :=
      hm.elim (fun hrate => ((hcovers.rate_iff m).mp hrate).1) (hcovers.of_isStale m)
    exact (hcovers.value_iff m).mpr hpolled

end Collector

end LinkTelemetry
