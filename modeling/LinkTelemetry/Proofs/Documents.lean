import LinkTelemetry.Export.Exporter
import LinkTelemetry.Proofs.Tables

/-!
# What documents say

Readers of the exporter's answers go by the names of fields. `Tree.at?`
follows a path of them, and here is what it finds in the three documents that
speak of endpoints: the latest snapshots and the history, the health of an
endpoint, and the description of a snapshot. Names that come from a table are
looked up in the document as in the table, because a table has no name twice.

What a snapshot or a health is to the document that it is written as is said
by `WrittenAs`, field by field.
-/

namespace LinkTelemetry

namespace Tree

/-- The value at the end of a path of field names. -/
def at? : List String → Tree → Option Tree
  | [], t => some t
  | name :: path, .table fields => (lookup name fields).bind (at? path)
  | _ :: _, _ => none

theorem lookup_map {α : Type} (write : α → Tree) (name : String) (entries : List (String × α)) :
    lookup name (entries.map fun (e, x) => (e, write x)) =
      (NameMap.find name entries).map write := by
  induction entries with
  | nil => rfl
  | cons entry rest ih =>
      obtain ⟨k, x⟩ := entry
      rw [List.map_cons, lookup, NameMap.find, ih]
      split <;> rfl

theorem lookup_entries (name : String) (map : NameMap Tree) :
    lookup name map.entries = map.get? name := by
  have h : lookup name (map.entries.map id) = (map.get? name).map id :=
    lookup_map id name map.entries
  rwa [Option.map_id, List.map_id] at h

end Tree

/-! ## Snapshots and the history -/

theorem MetricMap.at?_toTree_eq_some_iff (map : MetricMap Float) (name : String) (t : Tree) :
    map.toTree.at? [name] = some t ↔
      ∃ m x, map.get? m = some x ∧ m.name = name ∧ .number x = t := by
  let named : List (String × Float) := map.toList.map fun entry => (entry.1.name, entry.2)
  have hnodup : (named.map (·.1)).Nodup := by
    have hnames : named.map (·.1) = (map.toList.map (·.1)).map Metric.name := by
      rw [List.map_map, List.map_map]
      rfl
    rw [hnames]
    exact map.keys_toList_nodup.map fun _ _ => Metric.name_injective
  have hfound : map.toTree.at? [name] = (named.lookup name).map .number := by
    have hlookup := Tree.lookup_map .number name named
    rw [List.map_map, NameMap.find_eq_lookup] at hlookup
    exact (Option.bind_fun_some _).trans hlookup
  rw [hfound, Option.map_eq_some_iff]
  constructor
  · rintro ⟨x, hx, rfl⟩
    obtain ⟨⟨m, y⟩, hentry, heq⟩ := List.mem_map.mp (mem_of_lookup hx)
    cases heq
    exact ⟨m, y, (map.mem_toList m y).mp hentry, rfl, rfl⟩
  · rintro ⟨m, x, hx, rfl, rfl⟩
    exact ⟨x, lookup_of_mem hnodup (List.mem_map.mpr ⟨(m, x), (map.mem_toList m x).mpr hx, rfl⟩),
      rfl⟩

namespace Snapshot

/-- What a document says of a snapshot: its numbers stand under the names of
their metrics, and the names of the marked metrics are listed. -/
structure WrittenAs (s : Snapshot) (doc : Tree) : Prop where
  endpoint : doc.at? ["endpoint"] = some (.text s.endpoint)
  timestamp : doc.at? ["timestamp"] = some (.number s.timestamp)
  value_iff : ∀ name t, doc.at? ["values", name] = some t ↔
    ∃ m x, s.value? m = some x ∧ m.name = name ∧ .number x = t
  rate_iff : ∀ name t, doc.at? ["rates", name] = some t ↔
    ∃ m x, s.rate? m = some x ∧ m.name = name ∧ .number x = t
  stale : ∃ marked : List Metric,
    doc.at? ["stale"] = some (.list (marked.map fun m => .text m.name)) ∧
      ∀ m, m ∈ marked ↔ s.isStale m

theorem at?_timestamp (s : Snapshot) :
    s.toTree.at? ["timestamp"] = some (.number s.timestamp) := rfl

theorem writtenAs_toTree (s : Snapshot) : s.WrittenAs s.toTree where
  endpoint := rfl
  timestamp := s.at?_timestamp
  value_iff := s.values.at?_toTree_eq_some_iff
  rate_iff := s.rates.at?_toTree_eq_some_iff
  stale := ⟨s.staleMetrics, rfl, s.stale.mem_keys⟩

end Snapshot

namespace Store.View

theorem at?_history (view : View) :
    view.toTree.at? ["history"] = some (.list (view.history.map Snapshot.toTree)) := rfl

theorem at?_current (view : View) (e : EndpointName) (path : List String) :
    view.toTree.at? ("current" :: e :: path) =
      (view.current.get? e).bind fun s => s.toTree.at? path := by
  have hlookup := Tree.lookup_map Snapshot.toTree e view.current.entries
  show (Tree.lookup e _).bind _ = _
  rw [hlookup, Option.bind_map]
  rfl

end Store.View

namespace Export

/-! ## Health -/

namespace EndpointHealth

variable (h : EndpointHealth)

theorem at?_name : h.toTree.at? ["name"] = some (.text h.name) := rfl

theorem at?_collected : h.toTree.at? ["collected"] = some (.flag h.collected) := rfl

theorem at?_stale :
    h.toTree.at? ["stale"] = some (.list (h.stale.map fun m => .text m.name)) := rfl

theorem at?_lastUpdate : h.toTree.at? ["last_update"] = h.lastUpdate.map Tree.number := by
  obtain ⟨name, collected, stale, lastUpdate⟩ := h
  cases lastUpdate <;> rfl

end EndpointHealth

theorem Health.at?_endpoints (h : Health) (uptime : Float) :
    (h.toTree uptime).at? ["endpoints"] = some (.list (h.endpoints.map (·.toTree))) := rfl

/-- What an entry says of an endpoint. -/
structure EndpointHealth.WrittenAs (h : EndpointHealth) (entry : Tree) : Prop where
  name : entry.at? ["name"] = some (.text h.name)
  collected : entry.at? ["collected"] = some (.flag h.collected)
  stale : entry.at? ["stale"] = some (.list (h.stale.map fun m => .text m.name))
  lastUpdate : entry.at? ["last_update"] = h.lastUpdate.map .number

/-- What a document says of the health. -/
structure Health.WrittenAs (h : Health) (uptime : Float) (doc : Tree) : Prop where
  status : doc.at? ["status"] = some (.text (match h.status with
    | .starting => "starting"
    | .ok => "ok"
    | .degraded => "degraded"))
  cycles : doc.at? ["cycles"] = some (.whole h.cycles)
  uptime : doc.at? ["uptime_secs"] = some (.number uptime)
  endpoints : ∃ entries, doc.at? ["endpoints"] = some (.list entries) ∧
    List.Forall₂ EndpointHealth.WrittenAs h.endpoints entries

theorem Health.writtenAs_toTree (h : Health) (uptime : Float) :
    h.WrittenAs uptime (h.toTree uptime) where
  status := by
    obtain ⟨status, cycles, endpoints⟩ := h
    cases status <;> rfl
  cycles := rfl
  uptime := rfl
  endpoints := by
    refine ⟨_, h.at?_endpoints uptime, ?_⟩
    rw [List.forall₂_map_right_iff, List.forall₂_same]
    exact fun entry _ => ⟨entry.at?_name, entry.at?_collected, entry.at?_stale,
      entry.at?_lastUpdate⟩

/-! ## Descriptions -/

section

variable (s : Snapshot) (table : ThresholdTable)

theorem at?_describe_timestamp :
    (describe s table).at? ["timestamp"] = some (.number s.timestamp) := rfl

/-- The entries of a description under the names of their metrics. -/
def describedEntries : List (String × Tree) :=
  s.values.keys.filterMap fun m => (Entry.ofSnapshot? s table m).map fun e => (m.name, e.toTree)

theorem mem_describedEntries {name : String} {t : Tree} :
    (name, t) ∈ describedEntries s table ↔
      ∃ m e, Entry.ofSnapshot? s table m = some e ∧ m.name = name ∧ e.toTree = t := by
  rw [describedEntries, List.mem_filterMap]
  constructor
  · rintro ⟨m, -, h⟩
    obtain ⟨e, he, heq⟩ := Option.map_eq_some_iff.mp h
    obtain ⟨rfl, rfl⟩ := Prod.mk.inj heq
    exact ⟨m, e, he, rfl, rfl⟩
  · rintro ⟨m, e, he, rfl, rfl⟩
    refine ⟨m, ?_, by rw [he]; rfl⟩
    obtain ⟨x, hx, -⟩ := Option.map_eq_some_iff.mp he
    rw [MetricMap.mem_keys, MetricMap.contains]
    exact Option.isSome_of_eq_some hx

theorem describedEntries_nodup : ((describedEntries s table).map (·.1)).Nodup := by
  have hkeys : s.values.keys.Nodup := MetricMap.keys_toList s.values ▸ s.values.keys_toList_nodup
  rw [describedEntries, List.map_filterMap]
  refine hkeys.filterMap fun m n name hm hn => ?_
  simp only [Option.mem_def, Option.map_map, Option.map_eq_some_iff] at hm hn
  obtain ⟨_, -, rfl⟩ := hm
  obtain ⟨_, -, hname⟩ := hn
  exact (Metric.name_injective hname).symm

theorem at?_describe_name (name : String) (path : List String) :
    (describe s table).at? ("metrics" :: name :: path) =
      ((NameMap.ofList (describedEntries s table)).get? name).bind (Tree.at? path) := by
  rw [← Tree.lookup_entries]
  rfl

/-- The entry of a metric stands under its name. -/
theorem at?_describe (m : Metric) (path : List String) :
    (describe s table).at? ("metrics" :: m.name :: path) =
      (Entry.ofSnapshot? s table m).bind fun e => e.toTree.at? path := by
  have hfound : (NameMap.ofList (describedEntries s table)).get? m.name =
      (Entry.ofSnapshot? s table m).map (·.toTree) := by
    refine Option.ext fun t => ?_
    rw [NameMap.get?_ofList_iff (describedEntries_nodup s table), mem_describedEntries,
      Option.map_eq_some_iff]
    constructor
    · rintro ⟨n, e, he, hname, ht⟩
      exact ⟨e, Metric.name_injective hname ▸ he, ht⟩
    · rintro ⟨e, he, ht⟩
      exact ⟨m, e, he, rfl, ht⟩
  rw [at?_describe_name, hfound, Option.bind_map]
  rfl

theorem stale_of_ofSnapshot? {m : Metric} {e : Entry} (h : Entry.ofSnapshot? s table m = some e) :
    e.stale = s.isStale m := by
  obtain ⟨x, -, rfl⟩ := Option.map_eq_some_iff.mp h
  simp only [Snapshot.reading]
  cases s.isStale m with
  | true => rfl
  | false => cases (if m.isCounter then s.rate? m else s.value? m) <;> rfl

theorem at?_describe_stale (m : Metric) :
    (describe s table).at? ["metrics", m.name, "stale"] =
      (s.value? m).map fun _ => .flag (s.isStale m) := by
  rw [at?_describe]
  cases hentry : Entry.ofSnapshot? s table m with
  | none => rw [Option.map_eq_none_iff.mp hentry]; rfl
  | some e =>
      obtain ⟨x, hx, -⟩ := Option.map_eq_some_iff.mp hentry
      rw [hx, Option.map_some, ← stale_of_ofSnapshot? s table hentry]
      rfl

/-- An entry is marked like its metric, if it is there. -/
theorem at?_describe_stale_iff {m : Metric} (h : s.isStale m → (s.value? m).isSome) :
    (describe s table).at? ["metrics", m.name, "stale"] = some (.flag true) ↔ s.isStale m := by
  rw [at?_describe_stale, Option.map_eq_some_iff]
  constructor
  · rintro ⟨x, -, hflag⟩
    exact Tree.flag.inj hflag
  · intro hm
    obtain ⟨x, hx⟩ := Option.isSome_iff_exists.mp (h hm)
    exact ⟨x, hx, congrArg Tree.flag hm⟩

theorem at?_describe_severity (m : Metric) :
    (describe s table).at? ["metrics", m.name, "severity"] =
      (s.value? m).map fun _ =>
        Tree.optional (fun band : Severity => .text band.name) (s.reading table m).severity? := by
  rw [at?_describe, Entry.ofSnapshot?]
  cases s.value? m <;> rfl

/-- Nothing else stands there. -/
theorem at?_describe_of_ne {name : String} (h : ∀ m : Metric, m.name ≠ name)
    (path : List String) : (describe s table).at? ("metrics" :: name :: path) = none := by
  have hnone : (NameMap.ofList (describedEntries s table)).get? name = none := by
    refine Option.eq_none_iff_forall_ne_some.mpr fun t ht => ?_
    rw [NameMap.get?_ofList_iff (describedEntries_nodup s table), mem_describedEntries] at ht
    obtain ⟨m, -, -, hname, -⟩ := ht
    exact h m hname
  rw [at?_describe_name, hnone]
  rfl

end

end Export

end LinkTelemetry
