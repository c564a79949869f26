import LinkTelemetry.Proofs.Assembly

/-!
# What a run publishes

A run publishes one batch of snapshots with every cycle, and the store keeps
what it keeps of their concatenation, wherever it was cut. So a reader of the
history never sees anything but snapshots of completed cycles, and what is to
be said about the history can be said about batches: each has one snapshot
for each endpoint, in order (`endpoint_of_mem_batches`), and each of these
shows what its own samples came to (`cell_of_mem`).
-/

namespace LinkTelemetry

namespace Collector

section

variable (c : Collector) (stamp : Float) (outcomes : Outcomes)

theorem length_snapshots : (c.snapshots stamp outcomes).length = c.endpoints.length := by
  rw [← c.endpoint_snapshots stamp outcomes, List.length_map]

theorem endpoint_getElem {i : Nat} (hi : i < (c.snapshots stamp outcomes).length)
    (hi' : i < c.endpoints.length) :
    (c.snapshots stamp outcomes)[i].endpoint = c.endpoints[i] := by
  simp only [← c.endpoint_snapshots stamp outcomes, List.getElem_map]

end

variable {c : Collector} {stamp : Float} {outcomes : Outcomes} {s : Snapshot}

theorem endpoint_mem_of_mem (hs : s ∈ c.snapshots stamp outcomes) : s.endpoint ∈ c.endpoints := by
  rw [← c.endpoint_snapshots stamp outcomes]
  exact List.mem_map_of_mem hs

theorem timestamp_of_mem (hs : s ∈ c.snapshots stamp outcomes) : s.timestamp = stamp := by
  have hmem := List.mem_map_of_mem (f := fun s => (s.endpoint, s.timestamp)) hs
  rw [map_snapshots, List.mem_map] at hmem
  obtain ⟨e, -, heq⟩ := hmem
  exact (congrArg Prod.snd heq).symm

/-- A snapshot stands at the position of its endpoint. -/
theorem snapshotOf?_of_mem (hs : s ∈ c.snapshots stamp outcomes) :
    (c.assemble stamp outcomes).snapshotOf? c.endpoints s.endpoint = some s := by
  obtain ⟨i, hi, rfl⟩ := List.getElem_of_mem hs
  have hi' : i < c.endpoints.length := by rwa [← c.length_snapshots stamp outcomes]
  have hindex : c.endpoints.idxOf? (c.snapshots stamp outcomes)[i].endpoint = some i := by
    rw [c.endpoint_getElem stamp outcomes hi hi', List.idxOf?_eq_some_iff]
    refine ⟨hi', rfl, fun j hj heq => ?_⟩
    exact Nat.ne_of_lt hj (c.endpoints_nodup.getElem_inj_iff.mp heq)
  rw [Assembly.snapshotOf?, hindex]
  exact List.getElem?_eq_getElem hi

/-- What a snapshot of a cycle shows of a metric: what its own sample came to
if it is polled, and otherwise nothing. -/
theorem cell_of_mem (hs : s ∈ c.snapshots stamp outcomes) (m : Metric) :
    s.cell m = if m ∈ c.metrics then
      (outcomes s.endpoint m).cell m stamp (c.baselines.get? (s.endpoint, m))
      else ⟨none, none, false⟩ := by
  have hcell : (c.assemble stamp outcomes).cell? c.endpoints (s.endpoint, m) = some (s.cell m) := by
    rw [Assembly.cell?, snapshotOf?_of_mem hs]
    rfl
  have he := endpoint_mem_of_mem hs
  split
  · next hm =>
      have hp := (c.mem_pairs (s.endpoint, m)).mpr ⟨he, hm⟩
      exact Option.some.inj (hcell.symm.trans (c.assemble_of_mem stamp outcomes hp).1)
  · next hm =>
      have hempty : (c.assemble stamp outcomes).cell? c.endpoints (s.endpoint, m) =
          some ⟨none, none, false⟩ := by
        rw [assemble, (Assembly.foldl_place_frame _ fun o ho heq => hm ?_).1,
          Assembly.cell?_start c stamp he]
        have hmem := pair_of_mem_observations stamp outcomes ho
        rw [heq] at hmem
        exact ((c.mem_pairs _).mp hmem).2
      exact Option.some.inj (hcell.symm.trans hempty)

theorem current?_of_mem (hs : s ∈ c.snapshots stamp outcomes) (store : Store) :
    (store.publishCycle (c.snapshots stamp outcomes)).current? s.endpoint = some s := by
  rw [current?_publishCycle, snapshotOf?_of_mem hs, Option.some_or]

end Collector

namespace Monitor

variable {m : Monitor} {cycles : List Cycle}

/-- No cycle changes what a collector polls and how long it waits. -/
theorem settings_after (m : Monitor) (cycles : List Cycle) :
    (m.after cycles).collector.endpoints = m.collector.endpoints ∧
      (m.after cycles).collector.metrics = m.collector.metrics ∧
      (m.after cycles).collector.timeoutMs = m.collector.timeoutMs := by
  induction cycles generalizing m with
  | nil => exact ⟨rfl, rfl, rfl⟩
  | cons cycle rest ih => exact ih _

/-- The snapshots that a run publishes, one batch for each cycle. -/
def batches (m : Monitor) : List Cycle → List (List Snapshot)
  | [] => []
  | cycle :: rest =>
    m.collector.snapshots cycle.stamp cycle.outcomes ::
      (m.cycle cycle.stamp cycle.outcomes).batches rest

theorem length_batches (m : Monitor) (cycles : List Cycle) :
    (m.batches cycles).length = cycles.length := by
  induction cycles generalizing m with
  | nil => rfl
  | cons cycle rest ih => rw [batches, List.length_cons, List.length_cons, ih]

/-- A batch is what one cycle of the run published, after those before it. -/
theorem mem_batches {batch : List Snapshot} :
    batch ∈ m.batches cycles ↔ ∃ past now rest, cycles = past ++ now :: rest ∧
      batch = (m.after past).collector.snapshots now.stamp now.outcomes := by
  induction cycles generalizing m with
  | nil => simp [batches]
  | cons cycle rest ih =>
      rw [batches, List.mem_cons, ih]
      constructor
      · rintro (rfl | ⟨past, now, later, rfl, rfl⟩)
        · exact ⟨[], cycle, rest, rfl, rfl⟩
        · exact ⟨cycle :: past, now, later, rfl, rfl⟩
      · rintro ⟨past, now, later, heq, rfl⟩
        cases past with
        | nil =>
            obtain ⟨rfl, rfl⟩ := List.cons.inj heq
            exact .inl rfl
        | cons first past =>
            obtain ⟨rfl, rfl⟩ := List.cons.inj heq
            exact .inr ⟨past, now, later, rfl, rfl⟩

theorem endpoint_of_mem_batches {batch : List Snapshot} (h : batch ∈ m.batches cycles) :
    batch.map (·.endpoint) = m.collector.endpoints := by
  obtain ⟨past, now, rest, -, rfl⟩ := mem_batches.mp h
  rw [Collector.endpoint_snapshots, (m.settings_after past).1]

theorem length_of_mem_batches {batch : List Snapshot} (h : batch ∈ m.batches cycles) :
    batch.length = m.collector.endpoints.length := by
  rw [← endpoint_of_mem_batches h, List.length_map]

/-- The store holds the batches of a run behind what it held before. -/
theorem holds_after {capacity : Nat} (hc : 0 < capacity) {P : List Snapshot}
    (h : Store.Holds capacity P m.store) (cycles : List Cycle) :
    Store.Holds capacity (P ++ (m.batches cycles).flatten) (m.after cycles).store := by
  induction cycles generalizing m P with
  | nil =>
      rw [batches, List.flatten_nil, List.append_nil]
      exact h
  | cons cycle rest ih =>
      have hcycle := h.write hc
        (.publishCycle (m.collector.snapshots cycle.stamp cycle.outcomes))
      rw [batches, List.flatten_cons, ← List.append_assoc]
      exact ih hcycle

/-- On a store of its own a run leaves the end of what it published. -/
theorem history_after {capacity : Nat} (hc : 0 < capacity)
    (h : Store.Holds capacity [] m.store) (cycles : List Cycle) :
    (m.after cycles).store.history = (m.batches cycles).flatten.rtake capacity := by
  have hholds := holds_after hc h cycles
  rw [List.nil_append] at hholds
  exact hholds.history_eq

theorem mem_snapshots_of_mem_history {capacity : Nat} (hc : 0 < capacity)
    (h : Store.Holds capacity [] m.store) {s : Snapshot}
    (hs : s ∈ (m.after cycles).store.history) :
    ∃ past now rest, cycles = past ++ now :: rest ∧
      s ∈ (m.after past).collector.snapshots now.stamp now.outcomes := by
  rw [history_after hc h cycles] at hs
  obtain ⟨batch, hbatch, hs⟩ := List.mem_flatten.mp (List.mem_of_mem_drop hs)
  obtain ⟨past, now, rest, hcycles, rfl⟩ := mem_batches.mp hbatch
  exact ⟨past, now, rest, hcycles, hs⟩

/-- A collector that starts on a store of its own. -/
theorem new_eq {capacity : Nat} (hc : 0 < capacity) (c : Collector) :
    Monitor.new capacity (.ok c) = .ok ⟨c, ⟨.empty, [], capacity, 0⟩, []⟩ := by
  rw [Monitor.new, Store.new, if_neg hc.ne']
  rfl

end Monitor

end LinkTelemetry
