import LinkTelemetry.Proofs.Completeness
import LinkTelemetry.Proofs.Records
import LinkTelemetry.Proofs.Trimming

/-!
# The routes agree

Three routes tell of an endpoint, each from a part of its latest snapshot of
its own: the health from the marks, the description from the values, and the
metrics from the whole of it. They tell the same story because they look into
the same table for the snapshot, and because no mark of a snapshot stands
without a value (`Snapshot.MarksValued`): a mark without one would be listed
as stale and described nowhere.

What is asked for decides nothing here but the endpoint. The one endpoint
that cannot be asked for is the one with the empty name, which a
configuration may nevertheless have.
-/

namespace LinkTelemetry

namespace Store

theorem Holds.current?_mem {capacity : Nat} {P : List Snapshot} {store : Store}
    (h : Holds capacity P store) {e : EndpointName} {s : Snapshot}
    (hs : store.current? e = some s) : s ∈ P := by
  rw [h.current_eq] at hs
  exact List.mem_of_mem_filter (List.mem_of_getLast? hs)

end Store

namespace Export

/-- What the three routes have in common for an endpoint: its entry in the
health, the metrics, and the answer about it. -/
structure RoutesAgree (e : EndpointName) (entry metrics : Tree) (about : Response) : Prop where
  name : entry.at? ["name"] = some (.text e)
  collected_iff : entry.at? ["collected"] = some (.flag true) ↔ about.status = 200
  current_iff : (metrics.at? ["current", e]).isSome ↔ about.status = 200
  of_collected : about.status = 200 → ∃ (doc time : Tree) (stale : List String),
    about.body = .document doc ∧
    entry.at? ["last_update"] = some time ∧
    doc.at? ["timestamp"] = some time ∧
    metrics.at? ["current", e, "timestamp"] = some time ∧
    entry.at? ["stale"] = some (.list (stale.map .text)) ∧
    (∀ name, name ∈ stale ↔ doc.at? ["metrics", name, "stale"] = some (.flag true)) ∧
    ∀ name ∈ stale, doc.at? ["metrics", name, "severity"] = some .null
  of_not_collected : about.status ≠ 200 →
    entry.at? ["collected"] = some (.flag false) ∧
    about = ⟨404, .document (.table [("error", .text s!"no data yet for endpoint '{e}'")])⟩

/-- The marks of a snapshot are the entries of its description that are
marked, and none of them has a severity. -/
theorem mem_staleMetrics_iff_described {s : Snapshot} (h : s.MarksValued) (table : ThresholdTable)
    (name : String) :
    name ∈ s.staleMetrics.map Metric.name ↔
      (describe s table).at? ["metrics", name, "stale"] = some (.flag true) := by
  by_cases hname : ∃ m : Metric, m.name = name
  · obtain ⟨m, rfl⟩ := hname
    rw [List.mem_map_of_injective fun _ _ => Metric.name_injective, Snapshot.mem_staleMetrics,
      at?_describe_stale_iff s table (h m)]
    rfl
  · rw [at?_describe_of_ne s table fun m hm => hname ⟨m, hm⟩]
    refine iff_of_false (fun hmem => ?_) (by simp)
    obtain ⟨m, -, hm⟩ := List.mem_map.mp hmem
    exact hname ⟨m, hm⟩

theorem severity_of_isStale {s : Snapshot} {m : Metric} (h : s.MarksValued) (hm : s.isStale m)
    (table : ThresholdTable) :
    (describe s table).at? ["metrics", m.name, "severity"] = some .null := by
  obtain ⟨x, hx⟩ := Option.isSome_iff_exists.mp (h m hm)
  have hreading : s.reading table m = .stale := by rw [Snapshot.reading, if_pos hm]
  rw [at?_describe_severity, hx, hreading]
  rfl

namespace Exporter

section

variable (x : Exporter) (store : Store) (limit : Option Nat) {e : EndpointName}

theorem at?_current_trimmed (e : EndpointName) (path : List String) :
    (trimmed store.view limit).toTree.at? ("current" :: e :: path) =
      (store.current? e).bind fun s => s.toTree.at? path := by
  rw [Store.View.at?_current, current_trimmed]
  rfl

theorem routesAgree_of_snapshot {s : Snapshot} (hs : store.current? e = some s)
    (hmarks : s.MarksValued) :
    RoutesAgree e (EndpointHealth.ofView store.view e).toTree (trimmed store.view limit).toTree
      (x.aboutEndpoint store e) := by
  have hhealth : EndpointHealth.ofView store.view e =
      ⟨e, true, s.staleMetrics, some s.timestamp⟩ := by
    have hview : store.view.current.get? e = some s := hs
    rw [EndpointHealth.ofView, hview]
  have habout : x.aboutEndpoint store e = ⟨200, .document (describe s x.thresholds)⟩ := by
    rw [aboutEndpoint, hs]
  rw [hhealth, habout]
  exact {
    name := EndpointHealth.at?_name _
    collected_iff := iff_of_true (EndpointHealth.at?_collected _) rfl
    current_iff := by
      rw [at?_current_trimmed, hs]
      exact iff_of_true rfl rfl
    of_collected := by
      refine fun _ => ⟨_, .number s.timestamp, s.staleMetrics.map Metric.name, rfl,
        EndpointHealth.at?_lastUpdate _, at?_describe_timestamp s _, ?_, ?_,
        mem_staleMetrics_iff_described hmarks _, ?_⟩
      · rw [at?_current_trimmed, hs]
        exact s.at?_timestamp
      · rw [EndpointHealth.at?_stale, List.map_map]
        rfl
      · intro name hname
        obtain ⟨m, hm, rfl⟩ := List.mem_map.mp hname
        exact severity_of_isStale hmarks ((s.mem_staleMetrics m).mp hm) _
    of_not_collected := fun h => absurd rfl h }

theorem routesAgree_of_none (he : e ∈ x.endpoints) (hs : store.current? e = none) :
    RoutesAgree e (EndpointHealth.ofView store.view e).toTree (trimmed store.view limit).toTree
      (x.aboutEndpoint store e) := by
  have hhealth : EndpointHealth.ofView store.view e = ⟨e, false, [], none⟩ := by
    have hview : store.view.current.get? e = none := hs
    rw [EndpointHealth.ofView, hview]
  have habout : x.aboutEndpoint store e =
      ⟨404, .document (.table [("error", .text s!"no data yet for endpoint '{e}'")])⟩ := by
    rw [aboutEndpoint, hs, missing, if_pos (List.contains_iff_mem.mpr he)]
  have hstatus : (404 : Nat) ≠ 200 := by decide
  rw [hhealth, habout]
  exact {
    name := EndpointHealth.at?_name _
    collected_iff := by
      refine iff_of_false (fun h => ?_) hstatus
      rw [EndpointHealth.at?_collected] at h
      exact Bool.false_ne_true (Tree.flag.inj (Option.some.inj h))
    current_iff := by
      rw [at?_current_trimmed, hs]
      exact iff_of_false Bool.false_ne_true hstatus
    of_collected := fun h => absurd h hstatus
    of_not_collected := fun _ => ⟨EndpointHealth.at?_collected _, rfl⟩ }

end

end Exporter

/-- Asked about the same store, the routes tell the same of every configured
endpoint that can be asked for, whatever was published and whichever history
is asked for with the metrics. -/
theorem routes_agree {capacity : Nat} (hcapacity : 0 < capacity) (x : Exporter)
    (writes : List Store.Write) (hbuilt : ∀ s ∈ Store.published writes, s.IsBuilt) :
    ∃ start, Store.new capacity = .ok start ∧
      let store := start.afterWrites writes
      ∃ health entries, x.respond store (.ofUri "GET" "/health") = ⟨200, .document health⟩ ∧
        health.at? ["endpoints"] = some (.list entries) ∧
        (∀ query limit, limit? query = some limit → ∃ metrics,
          x.respond store ⟨"GET", "/metrics".toList, query⟩ = ⟨200, .document metrics⟩ ∧
          List.Forall₂ (fun e entry => ∀ r : Request, r.AsksFor e →
            RoutesAgree e entry metrics (x.respond store r)) x.endpoints entries) ∧
        ∀ e, (∃ uri, (Request.ofUri "GET" uri).AsksFor e) ↔ e ≠ "" := by
  obtain ⟨start, hstart, hholds⟩ := Store.exists_holds hcapacity
  refine ⟨start, hstart, ?_⟩
  intro store
  refine ⟨_, _, rfl, Health.at?_endpoints (.ofView x.endpoints store.view) x.uptimeSecs,
    fun query limit hlimit => ⟨_, x.respond_metrics store hlimit, ?_⟩, exists_asksFor_iff⟩
  show List.Forall₂ _ _ ((x.endpoints.map (EndpointHealth.ofView store.view)).map (·.toTree))
  rw [List.map_map, List.forall₂_map_right_iff, List.forall₂_same]
  intro e he r hr
  rw [respond_of_asksFor x store hr]
  cases hs : store.current? e with
  | none => exact x.routesAgree_of_none store limit he hs
  | some s =>
      have hmem : s ∈ Store.published writes := (hholds writes).current?_mem hs
      exact x.routesAgree_of_snapshot store limit hs
        (Snapshot.marksValued_of_isBuilt (hbuilt s hmem))

/-- One endpoint has a snapshot with a failed sample, and the other has none. -/
theorem routes_agree_of_failed_sample :
    let known := ((Snapshot.start "a" 1).recordValue .cpuPercent 5).recordStale .latencyMs
    let writes := [Store.Write.publish known]
    let x : Exporter := ⟨.builtin, ["a", "b"], 0⟩
    0 < 2 ∧ (∀ s ∈ Store.published writes, s.IsBuilt) ∧
      ∃ start, Store.new 2 = .ok start ∧
        let store := start.afterWrites writes
        let first := x.respond store (.ofUri "GET" (endpointAddress "a"))
        let second := x.respond store (.ofUri "GET" (endpointAddress "b"))
        first.status = 200 ∧ second.status = 404 ∧
          ∃ health entry entry' metrics,
            x.respond store (.ofUri "GET" "/health") = ⟨200, .document health⟩ ∧
            health.at? ["endpoints"] = some (.list [entry, entry']) ∧
            x.respond store (.ofUri "GET" "/metrics") = ⟨200, .document metrics⟩ ∧
            RoutesAgree "a" entry metrics first ∧ RoutesAgree "b" entry' metrics second := by
  intro known writes x
  have hbuilt : ∀ s ∈ Store.published writes, s.IsBuilt := by
    intro s hs
    rw [List.mem_singleton.mp hs]
    exact ⟨"a", 1, [.value .cpuPercent 5, .stale .latencyMs], rfl⟩
  have ha := asksFor_endpointAddress (show "a" ≠ "" by decide)
  have hb := asksFor_endpointAddress (show "b" ≠ "" by decide)
  refine ⟨by decide, hbuilt, ?_⟩
  obtain ⟨start, hstart, h⟩ := routes_agree (show 0 < 2 by decide) x writes hbuilt
  refine ⟨start, hstart, ?_⟩
  intro store first second
  obtain ⟨health, entries, hhealth, hentries, hagree, -⟩ := h
  obtain ⟨metrics, hmetrics, hagree⟩ := hagree [] none rfl
  cases hagree with
  | cons hfirst hrest =>
      cases hrest with
      | cons hsecond hnil =>
          cases hnil
          cases hstart
          refine ⟨?_, ?_, health, _, _, metrics, hhealth, hentries, hmetrics, hfirst _ ha,
            hsecond _ hb⟩
          · exact congrArg Response.status (respond_of_asksFor x store ha)
          · exact congrArg Response.status (respond_of_asksFor x store hb)

/-- An endpoint without a name is collected like any other, but the path that
would ask for it leads nowhere. -/
theorem unnamed_endpoint_unreachable :
    ∃ start, Store.new 1 = .ok start ∧
      let store := start.afterWrites [.publish (.start "" 1)]
      let x : Exporter := ⟨.empty, [""], 0⟩
      ∃ health entry, x.respond store (.ofUri "GET" "/health") = ⟨200, .document health⟩ ∧
        health.at? ["endpoints"] = some (.list [entry]) ∧
        entry.at? ["name"] = some (.text "") ∧
        entry.at? ["collected"] = some (.flag true) ∧
        x.respond store (.ofUri "GET" "/endpoints/") = ⟨404, .absent⟩ := by
  have hroute : route? (Request.ofUri "GET" "/endpoints/").path = none := by decide
  refine ⟨_, rfl, ?_⟩
  intro store x
  refine ⟨_, _, rfl, rfl, rfl, rfl, ?_⟩
  rw [Exporter.respond, hroute]

end Export

end LinkTelemetry
