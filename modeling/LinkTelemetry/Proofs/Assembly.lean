import LinkTelemetry.Collector.Cycle
import LinkTelemetry.Proofs.Retention
import Mathlib.Data.List.Nodup

/-!
# Every observation finds its own cell

The observations of a cycle travel as one list and are sorted into snapshots
by the position of their endpoint, past a map of baselines that all of them
share. What keeps them apart is the pair: an observation changes the cell of
its pair in the snapshots, the entry of its pair among the baselines, and
nothing else (`place_frame`). Since no pair is polled twice, every cell is
written exactly once, and what it ends up with depends on one outcome and one
baseline alone. `cell?_assemble` and `baseline?_after` say what that is.
-/

namespace LinkTelemetry

/-- The good total of a sample, as the baseline it becomes. -/
def Sample.good? (stamp : Float) : Sample → Option Baseline
  | .ok v => some ⟨v.toFloat, stamp⟩
  | .error _ => none

/-- What a snapshot says of a sample, given the baseline before it. -/
def Sample.cell (m : Metric) (stamp : Float) (previous : Option Baseline) : Sample → Snapshot.Cell
  | .ok v =>
    ⟨some v.toFloat,
      if m.isCounter then some (Baseline.next previous v.toFloat stamp).1 else none, false⟩
  | .error _ => ⟨some 0, if m.isCounter then some 0 else none, true⟩

theorem Sample.rate_cell (m : Metric) (stamp : Float) (previous : Option Baseline) (s : Sample) :
    (s.cell m stamp previous).rate =
      if m.isCounter then
        some (match s, previous with
          | .ok v, some last => LinkTelemetry.rate v.toFloat (some last.value) (stamp - last.stamp)
          | _, _ => 0)
      else none := by
  cases s with
  | error cause => rfl
  | ok v => cases previous <;> rfl

@[simp] theorem Baseline.next_snd (previous : Option Baseline) (value stamp : Float) :
    (Baseline.next previous value stamp).2 = ⟨value, stamp⟩ := by
  cases previous <;> rfl

@[simp] theorem Observation.pair_ofSample (stamp : Float) (p : Pair) (s : Sample) :
    (Observation.ofSample stamp p s).pair = p := by
  cases s <;> rfl

namespace Assembly

variable {endpoints : List EndpointName} {a : Assembly} {p q : Pair}

/-- The snapshot of an endpoint in the making. -/
def snapshotOf? (endpoints : List EndpointName) (a : Assembly) (e : EndpointName) :
    Option Snapshot :=
  (endpoints.idxOf? e).bind fun i => a.snapshots[i]?

/-- What the snapshots in the making say of a pair. -/
def cell? (endpoints : List EndpointName) (a : Assembly) (p : Pair) : Option Snapshot.Cell :=
  (a.snapshotOf? endpoints p.1).map (·.cell p.2)

theorem idxOf?_ne {e f : EndpointName} {i j : Nat} (hne : e ≠ f)
    (hi : endpoints.idxOf? e = some i) (hj : endpoints.idxOf? f = some j) : i ≠ j := by
  rintro rfl
  obtain ⟨_, he, -⟩ := List.idxOf?_eq_some_iff.mp hi
  obtain ⟨_, hf, -⟩ := List.idxOf?_eq_some_iff.mp hj
  exact hne (he.symm.trans hf)

/-- A change to one snapshot that spares all metrics but one spares all pairs
but one. -/
theorem cell?_modify_of_ne {i : Nat} {f : Snapshot → Snapshot} {baselines : PairMap Baseline}
    (hi : endpoints.idxOf? q.1 = some i) (hf : ∀ s n, n ≠ q.2 → (f s).cell n = s.cell n)
    (hne : q ≠ p) :
    cell? endpoints ⟨a.snapshots.modify i f, baselines⟩ p = a.cell? endpoints p := by
  rw [cell?, cell?, snapshotOf?, snapshotOf?]
  by_cases he : q.1 = p.1
  · have hm : p.2 ≠ q.2 := fun hm => hne (Prod.ext he hm.symm)
    rw [← he, hi]
    simp only [Option.bind_some, List.getElem?_modify_eq, Option.map_eq_map, Option.map_map]
    congr 1
    funext s
    exact hf s p.2 hm
  · cases hj : endpoints.idxOf? p.1 with
    | none => rfl
    | some j =>
        simp only [Option.bind_some]
        rw [List.getElem?_modify_ne _ _ (idxOf?_ne he hi hj)]

theorem cell?_modify_self {i : Nat} {f : Snapshot → Snapshot} {baselines : PairMap Baseline}
    (hi : endpoints.idxOf? p.1 = some i) :
    cell? endpoints ⟨a.snapshots.modify i f, baselines⟩ p =
      (a.snapshotOf? endpoints p.1).map fun s => (f s).cell p.2 := by
  rw [cell?, snapshotOf?, snapshotOf?, hi]
  simp only [Option.bind_some, List.getElem?_modify_eq, Option.map_eq_map, Option.map_map]
  rfl

/-- An observation leaves everything of the other pairs as it was. -/
theorem place_frame (o : Observation) (hne : o.pair ≠ p) :
    (place endpoints a o).cell? endpoints p = a.cell? endpoints p ∧
      (place endpoints a o).baselines.get? p = a.baselines.get? p := by
  rw [place]
  split
  · exact ⟨rfl, rfl⟩
  · next i hi =>
      split
      · refine ⟨cell?_modify_of_ne hi (fun s n hn => ?_) hne, rfl⟩
        rw [Snapshot.cell_recordStale, if_neg hn]
      · split
        · refine ⟨cell?_modify_of_ne hi (fun s n hn => ?_) hne, ?_⟩
          · rw [Snapshot.cell_recordCounter, if_neg hn]
          · rw [PairMap.get?_insert, if_neg (Ne.symm hne)]
        · refine ⟨cell?_modify_of_ne hi (fun s n hn => ?_) hne, rfl⟩
          rw [Snapshot.cell_recordValue, if_neg hn]

theorem foldl_place_frame (os : List Observation) (hne : ∀ o ∈ os, o.pair ≠ p) :
    (os.foldl (place endpoints) a).cell? endpoints p = a.cell? endpoints p ∧
      (os.foldl (place endpoints) a).baselines.get? p = a.baselines.get? p := by
  induction os generalizing a with
  | nil => exact ⟨rfl, rfl⟩
  | cons o rest ih =>
      obtain ⟨hcell, hbase⟩ := place_frame (a := a) o (hne o List.mem_cons_self)
      obtain ⟨hcell', hbase'⟩ := ih (a := place endpoints a o)
        fun o' ho' => hne o' (List.mem_cons_of_mem _ ho')
      exact ⟨hcell'.trans hcell, hbase'.trans hbase⟩

/-- A sample goes into an empty cell as what it came to. -/
theorem place_ofSample (stamp : Float) (s : Sample) (hp : p.1 ∈ endpoints)
    (hempty : a.cell? endpoints p = some ⟨none, none, false⟩) :
    (place endpoints a (.ofSample stamp p s)).cell? endpoints p =
        some (s.cell p.2 stamp (a.baselines.get? p)) ∧
      (place endpoints a (.ofSample stamp p s)).baselines.get? p =
        if p.2.isCounter then (s.good? stamp).or (a.baselines.get? p) else a.baselines.get? p := by
  obtain ⟨i, hi⟩ := Option.isSome_iff_exists.mp (List.isSome_idxOf?.mpr hp)
  obtain ⟨snapshot, hsnapshot, hcell⟩ := Option.map_eq_some_iff.mp hempty
  have hrate : snapshot.rate? p.2 = none := congrArg Snapshot.Cell.rate hcell
  cases s with
  | error cause =>
      simp only [place, Observation.ofSample, hi, if_true]
      rw [cell?_modify_self hi, hsnapshot]
      simp [Snapshot.cell_recordStale, hrate, Sample.cell, Sample.good?]
  | ok v =>
      by_cases hm : p.2.isCounter
      · simp only [place, Observation.ofSample, hi, hm, if_true, Bool.false_eq_true, if_false]
        rw [cell?_modify_self hi, hsnapshot]
        simp [Snapshot.cell_recordCounter, hcell, Sample.cell, Sample.good?, hm]
      · simp only [place, Observation.ofSample, hi, hm, Bool.false_eq_true, if_false]
        rw [cell?_modify_self hi, hsnapshot]
        simp [Snapshot.cell_recordValue, hcell, Sample.cell, hm]

theorem cell?_start (c : Collector) (stamp : Float) (hp : p.1 ∈ c.endpoints) :
    (start c stamp).cell? c.endpoints p = some ⟨none, none, false⟩ := by
  obtain ⟨i, hi⟩ := Option.isSome_iff_exists.mp (List.isSome_idxOf?.mpr hp)
  obtain ⟨hlt, he, -⟩ := List.idxOf?_eq_some_iff.mp hi
  rw [cell?, snapshotOf?, start, hi]
  simp [hlt]

/-- No observation moves a snapshot to another endpoint or another time. -/
theorem map_place (o : Observation) :
    (place endpoints a o).snapshots.map (fun s => (s.endpoint, s.timestamp)) =
      a.snapshots.map fun s => (s.endpoint, s.timestamp) := by
  have hmodify : ∀ i (f : Snapshot → Snapshot),
      (∀ s, ((f s).endpoint, (f s).timestamp) = (s.endpoint, s.timestamp)) →
      (a.snapshots.modify i f).map (fun s => (s.endpoint, s.timestamp)) =
        a.snapshots.map fun s => (s.endpoint, s.timestamp) := by
    intro i f hf
    refine List.ext_getElem? fun j => ?_
    rw [List.getElem?_map, List.getElem?_map]
    by_cases hij : i = j
    · subst hij
      rw [List.getElem?_modify_eq]
      cases a.snapshots[i]? with
      | none => rfl
      | some s => exact congrArg some (hf s)
    · rw [List.getElem?_modify_ne _ _ hij]
  rw [place]
  split
  · rfl
  · split
    · exact hmodify _ _ fun _ => rfl
    · split
      · exact hmodify _ _ fun _ => rfl
      · exact hmodify _ _ fun _ => rfl

theorem map_foldl_place (os : List Observation) :
    (os.foldl (place endpoints) a).snapshots.map (fun s => (s.endpoint, s.timestamp)) =
      a.snapshots.map fun s => (s.endpoint, s.timestamp) := by
  induction os generalizing a with
  | nil => rfl
  | cons o rest ih => exact ih.trans (map_place o)

end Assembly

namespace Collector

variable (c : Collector) (stamp : Float) (outcomes : Outcomes)

theorem pairs_nodup : c.pairs.Nodup := List.Nodup.product c.endpoints_nodup c.metrics_nodup

theorem pair_of_mem_observations {pairs : List Pair} {o : Observation}
    (ho : o ∈ pairs.map fun q => .ofSample stamp q (outcomes q.1 q.2)) : o.pair ∈ pairs := by
  obtain ⟨q, hq, rfl⟩ := List.mem_map.mp ho
  rw [Observation.pair_ofSample]
  exact hq

/-- A polled pair has one observation among those of its cycle, and the cell
of the pair shows it. -/
theorem assemble_of_mem {p : Pair} (hp : p ∈ c.pairs) :
    (c.assemble stamp outcomes).cell? c.endpoints p =
        some ((outcomes p.1 p.2).cell p.2 stamp (c.baselines.get? p)) ∧
      (c.assemble stamp outcomes).baselines.get? p =
        if p.2.isCounter then ((outcomes p.1 p.2).good? stamp).or (c.baselines.get? p)
        else c.baselines.get? p := by
  have hmem := ((c.mem_pairs p).mp hp).1
  obtain ⟨before, after, hsplit⟩ := List.append_of_mem hp
  have hnodup := c.pairs_nodup
  rw [hsplit, List.nodup_append] at hnodup
  obtain ⟨-, hafter, hapart⟩ := hnodup
  have hbefore : p ∉ before := fun h => hapart p h p List.mem_cons_self rfl
  have hafter : p ∉ after := (List.nodup_cons.mp hafter).1
  obtain ⟨hcell, hbase⟩ := @Assembly.foldl_place_frame c.endpoints (.start c stamp) p
    (before.map fun q => .ofSample stamp q (outcomes q.1 q.2))
    fun o ho h => hbefore (h ▸ pair_of_mem_observations stamp outcomes ho)
  rw [Assembly.cell?_start c stamp hmem] at hcell
  obtain ⟨hcell', hbase'⟩ := Assembly.place_ofSample stamp (outcomes p.1 p.2) hmem hcell
  rw [hbase] at hcell' hbase'
  obtain ⟨hcell'', hbase''⟩ := @Assembly.foldl_place_frame c.endpoints _ p
    (after.map fun q => .ofSample stamp q (outcomes q.1 q.2))
    fun o ho h => hafter (h ▸ pair_of_mem_observations stamp outcomes ho)
  rw [assemble, observations, hsplit, List.map_append, List.map_cons, List.foldl_append,
    List.foldl_cons]
  exact ⟨hcell''.trans hcell', hbase''.trans hbase'⟩

theorem baselines_assemble_of_not_mem {p : Pair} (hp : p ∉ c.pairs) :
    (c.assemble stamp outcomes).baselines.get? p = c.baselines.get? p := by
  refine (Assembly.foldl_place_frame (c.observations stamp outcomes) fun o ho h => ?_).2
  subst h
  exact hp (pair_of_mem_observations stamp outcomes ho)

theorem map_snapshots :
    (c.snapshots stamp outcomes).map (fun s => (s.endpoint, s.timestamp)) =
      c.endpoints.map fun e => (e, stamp) := by
  rw [snapshots, assemble, Assembly.map_foldl_place, Assembly.start, List.map_map]
  rfl

theorem endpoint_snapshots : (c.snapshots stamp outcomes).map (·.endpoint) = c.endpoints := by
  have h := congrArg (List.map Prod.fst) (map_snapshots c stamp outcomes)
  rw [List.map_map, List.map_map] at h
  exact h.trans (List.map_id c.endpoints)

/-- A cycle moves the baseline of a polled counter to its good total, and no
other baseline. -/
theorem baseline?_after (e : EndpointName) (m : Metric) :
    (c.after stamp outcomes).baseline? e m =
      if (e, m) ∈ c.pairs ∧ m.isCounter then ((outcomes e m).good? stamp).or (c.baseline? e m)
      else c.baseline? e m := by
  by_cases hp : (e, m) ∈ c.pairs
  · have h := (c.assemble_of_mem stamp outcomes hp).2
    by_cases hm : m.isCounter
    · rw [if_pos hm] at h
      rw [if_pos ⟨hp, hm⟩]
      exact h
    · rw [if_neg hm] at h
      rw [if_neg fun hboth => hm hboth.2]
      exact h
  · rw [if_neg fun hboth => hp hboth.1]
    exact c.baselines_assemble_of_not_mem stamp outcomes hp

end Collector

theorem getLast?_ofEndpoint {snapshots : List Snapshot}
    (hnodup : (snapshots.map (·.endpoint)).Nodup) (e : EndpointName) :
    (Store.ofEndpoint e snapshots).getLast? =
      ((snapshots.map (·.endpoint)).idxOf? e).bind fun i => snapshots[i]? := by
  induction snapshots with
  | nil => rfl
  | cons s rest ih =>
      rw [List.map_cons, List.nodup_cons] at hnodup
      rw [List.map_cons, List.idxOf?_cons]
      by_cases he : s.endpoint = e
      · subst he
        have hnone : Store.ofEndpoint s.endpoint rest = [] := by
          refine List.filter_eq_nil_iff.mpr fun t ht h => hnodup.1 ?_
          exact List.mem_map.mpr ⟨t, ht, of_decide_eq_true h⟩
        rw [Store.ofEndpoint_cons_self, hnone]
        simp
      · rw [Store.ofEndpoint_cons_of_ne he, ih hnodup.2]
        cases h : (rest.map (·.endpoint)).idxOf? e <;> simp [he]

theorem Collector.current?_publishCycle (c : Collector) (stamp : Float) (outcomes : Outcomes)
    (store : Store) (e : EndpointName) :
    (store.publishCycle (c.snapshots stamp outcomes)).current? e =
      ((c.assemble stamp outcomes).snapshotOf? c.endpoints e).or (store.current? e) := by
  have hnodup : ((c.snapshots stamp outcomes).map (·.endpoint)).Nodup := by
    rw [c.endpoint_snapshots stamp outcomes]
    exact c.endpoints_nodup
  rw [Store.current?_publishCycle, getLast?_ofEndpoint hnodup, c.endpoint_snapshots stamp outcomes]
  rfl

/-- What the current snapshot of an endpoint says of a pair. -/
def Monitor.cell? (m : Monitor) (p : Pair) : Option Snapshot.Cell :=
  (m.store.current? p.1).map (·.cell p.2)

theorem Monitor.cell_cycle (m : Monitor) (stamp : Float) (outcomes : Outcomes) {p : Pair}
    (hp : p ∈ m.collector.pairs) :
    (m.cycle stamp outcomes).cell? p =
      some ((outcomes p.1 p.2).cell p.2 stamp (m.collector.baselines.get? p)) := by
  have hcell := (m.collector.assemble_of_mem stamp outcomes hp).1
  obtain ⟨s, hs, hscell⟩ := Option.map_eq_some_iff.mp hcell
  rw [Monitor.cell?, Monitor.cycle, Collector.current?_publishCycle, hs]
  exact congrArg some hscell

end LinkTelemetry
