import LinkTelemetry.Proofs.Tables
import LinkTelemetry.Proofs.Thinned
import Mathlib.Data.Set.List

/-!
# Configurations survive their documents

A configuration that is written and read again is the same configuration, with
its empty fields written out or left out. The fields of the whole may be left
out as well, and then each is at its standard value and none of the others is
touched.

Each part is written in one way and read in several, so the lemmas are one for
each kind of part, from simple values to endpoints. Thresholds take the
longest way: they go through a table that is keyed by names, and are sorted by
them on the way out and on the way back.
-/

namespace LinkTelemetry

namespace Metric

theorem parse?_name (m : Metric) : parse? m.name = some m := by cases m <;> decide +kernel

end Metric

namespace Codec

open LinkTelemetry.Tree (Thinned Omitting)

/-! ## Simple parts -/

theorem reads_metric (m : Metric) : Reads metric (.text m.name) m := by
  intro t' h
  cases h
  rw [metric, Metric.ofName?_name]
  rfl

theorem reads_texts (texts : List String) : Reads (list text) (ofTexts texts) texts :=
  reads_list reads_text texts

/-! ## Sources and endpoints -/

theorem reads_source (spec : SourceSpec) : Reads source (ofSource spec) spec := by
  intro t' ht
  cases spec with
  | agent host port community version extend =>
      have hnames : ["kind", "host", "port", "community", "version", "extend"].Nodup := by decide
      obtain ⟨fs, rfl, h⟩ := ht.exists_fields
      have hkind := field_ok "kind" h hnames rfl (reads_text "snmp") nofun
      have hhost := field_ok "host" h hnames rfl (reads_text host) nofun
      have hport := fieldOr_ok "port" 161 h hnames rfl (reads_uint16 port) nofun
      have hcommunity := fieldOr_ok "community" "public" h hnames rfl (reads_text community) nofun
      have hversion := fieldOr_ok "version" "1" h hnames rfl (reads_text version) nofun
      have hextend := fieldOr_ok "extend" false h hnames rfl (reads_flag extend) nofun
      simp [source, sourceKind, fields, hkind, hhost, hport, hcommunity, hversion, hextend]
  | companion program args =>
      have hnames : ["kind", "program", "args"].Nodup := by decide
      obtain ⟨fs, rfl, h⟩ := ht.exists_fields
      have hkind := field_ok "kind" h hnames rfl (reads_text "command") nofun
      have hprogram := field_ok "program" h hnames rfl (reads_text program) nofun
      have hargs := fieldOr_ok "args" [] h hnames rfl (reads_texts args) nofun
      simp [source, sourceKind, fields, hkind, hprogram, hargs]
  | procfs port probe interfaces =>
      have hnames : ["kind", "port", "probe", "interfaces"].Nodup := by decide
      obtain ⟨fs, rfl, h⟩ := ht.exists_fields
      have hkind := field_ok "kind" h hnames rfl (reads_text "local") nofun
      have hport := optionalField_ok "port" (o := port) h hnames rfl reads_uint16 fun _ => nofun
      have hprobe := optionalField_ok "probe" (o := probe) h hnames rfl reads_text fun _ => nofun
      have hinterfaces := fieldOr_ok "interfaces" [] h hnames rfl (reads_texts interfaces) nofun
      simp [source, sourceKind, fields, hkind, hport, hprobe, hinterfaces]
  | simulated seed =>
      have hnames : ["kind", "seed"].Nodup := by decide
      obtain ⟨fs, rfl, h⟩ := ht.exists_fields
      have hkind := field_ok "kind" h hnames rfl (reads_text "simulated") nofun
      have hseed := optionalField_ok "seed" (o := seed) h hnames rfl reads_uint64 fun _ => nofun
      simp [source, sourceKind, fields, hkind, hseed]

theorem reads_endpoint (e : EndpointConfig) : Reads endpoint (ofEndpoint e) e := by
  intro t' ht
  have hnames : ["name", "source"].Nodup := by decide
  have hsource : ofSource e.source ≠ .null := by cases e.source <;> nofun
  obtain ⟨fs, rfl, h⟩ := ht.exists_fields
  have hname := field_ok "name" h hnames rfl (reads_text e.name) nofun
  have hsource := field_ok "source" h hnames rfl (reads_source e.source) hsource
  simp [endpoint, fields, hname, hsource]

/-! ## Thresholds -/

theorem reads_thresholds {t : Thresholds} (hwarn : t.warn.isFinite)
    (hcritical : t.critical.isFinite) : Reads thresholds (ofThresholds t) t := by
  intro t' ht
  rw [ofThresholds, Tree.number, if_pos hwarn, Tree.number, if_pos hcritical] at ht
  have hnames : ["warn", "critical"].Nodup := by decide
  obtain ⟨fs, rfl, h⟩ := ht.exists_fields
  have hwarn := field_ok "warn" h hnames rfl (reads_real t.warn) nofun
  have hcritical := field_ok "critical" h hnames rfl (reads_real t.critical) nofun
  simp [thresholds, fields, hwarn, hcritical]

/-- An entry of a table of thresholds under the name of its metric. -/
def underName (entry : Metric × Thresholds) : String × Thresholds := (entry.1.name, entry.2)

theorem underName_injective : Function.Injective underName := by
  intro a b h
  exact Prod.ext (Metric.name_injective (congrArg (·.1) h)) (congrArg (·.2) h)

theorem map_underName (entries : List (Metric × Thresholds)) :
    (entries.map underName).map (·.1) = (entries.map (·.1)).map Metric.name := by
  rw [List.map_map, List.map_map]
  rfl

/-- The entries of a table of thresholds under the names of their metrics. -/
def named (table : ThresholdTable) : NameMap Thresholds := .ofList (table.toList.map underName)

theorem mem_named {table : ThresholdTable} {entry : String × Thresholds} :
    entry ∈ (named table).entries ↔ ∃ m t, underName (m, t) = entry ∧ table.get? m = some t := by
  have hnames : ((table.toList.map underName).map (·.1)).Nodup := by
    rw [map_underName]
    exact table.keys_toList_nodup.map fun _ _ => Metric.name_injective
  obtain ⟨name, t⟩ := entry
  rw [NameMap.mem_entries, named, NameMap.get?_ofList_iff hnames, List.mem_map]
  constructor
  · rintro ⟨⟨m, u⟩, hmem, heq⟩
    exact ⟨m, u, heq, (table.mem_toList m u).mp hmem⟩
  · rintro ⟨m, u, heq, hu⟩
    exact ⟨(m, u), (table.mem_toList m u).mpr hu, heq⟩

/-- What is under the name of a metric is the entry of that metric. -/
theorem ofNamed_named (table : ThresholdTable) :
    ThresholdTable.ofNamed (named table).entries = .ok table := by
  obtain ⟨entries, hentries⟩ : (named table).entries ∈ Set.range (List.map underName) := by
    rw [Set.range_list_map]
    intro entry hmem
    obtain ⟨m, t, heq, -⟩ := mem_named.mp hmem
    exact ⟨(m, t), heq⟩
  have hmem : ∀ m t, (m, t) ∈ entries ↔ table.get? m = some t := by
    intro m t
    rw [← List.mem_map_of_injective underName_injective, hentries, mem_named]
    constructor
    · rintro ⟨n, u, heq, hu⟩
      cases underName_injective heq
      exact hu
    · exact fun h => ⟨m, t, rfl, h⟩
  have hnodup : (entries.map (·.1)).Nodup := by
    have hnames := (named table).keys_nodup
    rw [← hentries, map_underName] at hnames
    exact hnames.of_map
  have hsame : List.Forall₂ (fun a b => underName a = b) entries (entries.map underName) :=
    List.forall₂_map_right_iff.mpr (List.forall₂_same.mpr fun _ _ => rfl)
  rw [ThresholdTable.ofNamed, ← hentries, mapM_eq_ok (g := id) hsame, List.map_id]
  · exact congrArg Except.ok (MetricMap.ofList_of_mem_iff hnodup hmem)
  · rintro ⟨m, t⟩ - _ rfl
    simp only [underName, Metric.parse?_name]
    rfl

/-- Every threshold of a table can be written as a number. -/
def Finite (table : ThresholdTable) : Prop :=
  ∀ m t, table.get? m = some t → t.warn.isFinite ∧ t.critical.isFinite

theorem reads_thresholdTable {table : ThresholdTable} (h : Finite table) :
    Reads thresholdTable (ofThresholdTable table) table := by
  intro t' ht
  obtain ⟨fs, rfl, hfs⟩ := ht.exists_fields
  have hkept : List.Forall₂ (fun entry f => entry.1 = f.1 ∧ Thinned (ofThresholds entry.2) f.2)
      (named table).entries fs := by
    refine List.forall₂_map_left_iff.mp (hfs.forall₂ fun f hf => ?_)
    obtain ⟨entry, -, rfl⟩ := List.mem_map.mp hf
    nofun
  have hread : ∀ entry ∈ (named table).entries, ∀ f : String × Tree,
      entry.1 = f.1 ∧ Thinned (ofThresholds entry.2) f.2 →
        (do return (f.1, ← thresholds f.2) : Decoded (String × Thresholds)) = .ok entry := by
    rintro entry hmem f ⟨hname, hthin⟩
    obtain ⟨m, t, rfl, ht⟩ := mem_named.mp hmem
    obtain ⟨hwarn, hcritical⟩ := h m t ht
    rw [← hname, reads_thresholds hwarn hcritical f.2 hthin]
    rfl
  have hnamed : namedThresholds (.table fs) = .ok (named table).entries := by
    rw [namedThresholds, mapM_eq_ok (g := id) hkept hread, List.map_id, ok_bind,
      NameMap.ofList_entries]
    rfl
  rw [thresholdTable, hnamed, ok_bind, ofNamed_named]

/-! ## The whole configuration -/

/-- The part of a configuration that a field is about. -/
def part (c : Config) (name : String) : Setting :=
  if name = "interval_ms" then .intervalMs c.intervalMs
  else if name = "history_capacity" then .historyCapacity c.historyCapacity
  else if name = "sample_timeout_ms" then .sampleTimeoutMs c.sampleTimeoutMs
  else if name = "metrics" then .metrics c.metrics
  else if name = "thresholds" then .thresholds c.thresholds
  else if name = "endpoints" then .endpoints c.endpoints
  else .unknown

/-- The fields of a written configuration. -/
def written (c : Config) : List (String × Tree) :=
  [("interval_ms", .whole c.intervalMs.toNat),
    ("history_capacity", .whole c.historyCapacity.toNat),
    ("sample_timeout_ms", .whole c.sampleTimeoutMs.toNat),
    ("metrics", .list (c.metrics.map fun m => .text m.name)),
    ("thresholds", ofThresholdTable c.thresholds),
    ("endpoints", .list (c.endpoints.map ofEndpoint))]

theorem forall_mem_written {P : String × Tree → Prop} {c : Config}
    (hinterval : P ("interval_ms", .whole c.intervalMs.toNat))
    (hcapacity : P ("history_capacity", .whole c.historyCapacity.toNat))
    (htimeout : P ("sample_timeout_ms", .whole c.sampleTimeoutMs.toNat))
    (hmetrics : P ("metrics", .list (c.metrics.map fun m => .text m.name)))
    (hthresholds : P ("thresholds", ofThresholdTable c.thresholds))
    (hendpoints : P ("endpoints", .list (c.endpoints.map ofEndpoint))) :
    ∀ f ∈ written c, P f := by
  simp [written, *]

theorem written_ne_null (c : Config) : ∀ f ∈ written c, f.2 ≠ .null := by
  refine forall_mem_written ?_ ?_ ?_ ?_ ?_ ?_ <;> nofun

theorem reads_setting {c : Config} (h : Finite c.thresholds) :
    ∀ f ∈ written c, Reads (setting f.1) f.2 (part c f.1) := by
  have hmap : ∀ {α : Type} {value : Tree → Decoded α} {t : Tree} {a : α} (g : α → Setting),
      Reads value t a → Reads (fun t' => g <$> value t') t (g a) := by
    intro α value t a g hread t' ht
    exact congrArg (Functor.map g) (hread t' ht)
  refine forall_mem_written ?_ ?_ ?_ ?_ ?_ ?_
  · exact hmap .intervalMs (reads_uint64 _)
  · exact hmap .historyCapacity (reads_uint64 _)
  · exact hmap .sampleTimeoutMs (reads_uint64 _)
  · exact hmap .metrics (reads_list reads_metric _)
  · exact hmap .thresholds (reads_thresholdTable h)
  · exact hmap .endpoints (reads_list reads_endpoint _)

end Codec

namespace Tree

/-- A table without the fields of some names. -/
def without (removed : String → Bool) : Tree → Tree
  | .table fields => .table (fields.filter fun f => !removed f.1)
  | other => other

end Tree

namespace Config

open Codec LinkTelemetry.Tree

/-- A configuration with the standard values for some of its fields. -/
def reset (c : Config) (removed : String → Bool) : Config where
  intervalMs := if removed "interval_ms" then standard.intervalMs else c.intervalMs
  historyCapacity :=
    if removed "history_capacity" then standard.historyCapacity else c.historyCapacity
  sampleTimeoutMs :=
    if removed "sample_timeout_ms" then standard.sampleTimeoutMs else c.sampleTimeoutMs
  metrics := if removed "metrics" then standard.metrics else c.metrics
  thresholds := if removed "thresholds" then standard.thresholds else c.thresholds
  endpoints := if removed "endpoints" then standard.endpoints else c.endpoints

/-- Applying a setting or not, field by field. -/
theorem apply_unless (b : Bool) (c : Config) (s : Setting) :
    (if !b then apply c s else c) = match s with
      | .intervalMs n => { c with intervalMs := if b then c.intervalMs else n }
      | .historyCapacity n => { c with historyCapacity := if b then c.historyCapacity else n }
      | .sampleTimeoutMs n => { c with sampleTimeoutMs := if b then c.sampleTimeoutMs else n }
      | .metrics ms => { c with metrics := if b then c.metrics else ms }
      | .thresholds t => { c with thresholds := if b then c.thresholds else t }
      | .endpoints es => { c with endpoints := if b then c.endpoints else es }
      | .unknown => c := by
  cases b <;> cases s <;> rfl

theorem foldl_part (c : Config) (removed : String → Bool) :
    (((written c).filter fun f => !removed f.1).map fun f => part c f.1).foldl apply standard =
      c.reset removed := by
  rw [List.foldl_map, List.foldl_filter]
  simp only [written, List.foldl_cons, List.foldl_nil, apply_unless]
  rfl

theorem ofTree_without {c : Config} (h : Finite c.thresholds) {t : Tree}
    (ht : Thinned c.toTree t) (removed : String → Bool) :
    ofTree (t.without removed) = .ok (c.reset removed) := by
  have htable : Thinned (.table (written c)) t := ht
  obtain ⟨fs, rfl, hfs⟩ := htable.exists_fields
  have hkept := (hfs.filter fun name => !removed name).forall₂
    fun f hf => written_ne_null c f (List.mem_filter.mp hf).1
  have hsettings := mapM_eq_ok hkept (f := fun f => setting f.1 f.2) (g := fun f => part c f.1)
    fun f hf f' hff' => by
      rw [← hff'.1]
      exact reads_setting h f (List.mem_filter.mp hf).1 f'.2 hff'.2
  rw [Tree.without, ofTree, Codec.fields, ok_bind, hsettings, ok_bind, foldl_part]
  rfl

end Config

/-- A configuration with finite thresholds is read back from what it is written
as, whichever empty fields are left out. Fields of the whole that are removed
are at their standard values then, and no other field is touched. -/
theorem config_round_trip (c : Config) (h : Codec.Finite c.thresholds) :
    Config.ofTree c.toTree = .ok c ∧ Config.ofTree c.toTree.withoutNulls = .ok c ∧
    ∀ t, Tree.Thinned c.toTree t → ∀ removed : String → Bool,
      Config.ofTree (t.without removed) = .ok (c.reset removed) := by
  have hwhole : ∀ t, Tree.Thinned c.toTree t → Config.ofTree t = .ok c := by
    intro t ht
    have hnone := Config.ofTree_without h ht fun _ => false
    cases t with
    | table fields => simpa [Tree.without, Config.reset] using hnone
    | _ => exact hnone
  refine ⟨hwhole _ (.refl _), hwhole _ (Tree.thinned_withoutNulls _), ?_⟩
  exact fun t ht removed => Config.ofTree_without h ht removed

/-- An agent in extend mode and the local kernel without a probe, a metric
twice, and thresholds of one metric; the capacity is removed. -/
theorem config_round_trip_of_two_endpoints :
    let c : Config :=
      { intervalMs := 250, historyCapacity := 50, sampleTimeoutMs := 900
        metrics := [.latencyMs, .bytesIn, .latencyMs]
        thresholds := .ofList [(.latencyMs, ⟨20, 50⟩)]
        endpoints := [⟨"server", .agent "10.0.0.1" 161 "public" "2c" true⟩,
          ⟨"client", .procfs (some 5000) none []⟩] }
    Codec.Finite c.thresholds ∧ Config.ofTree c.toTree.withoutNulls = .ok c ∧
      Config.ofTree (c.toTree.withoutNulls.without (· == "history_capacity")) =
        .ok { c with historyCapacity := 300 } := by
  intro c
  have hfinite : Codec.Finite c.thresholds := by
    intro m t ht
    cases m <;> cases ht
    exact ⟨by decide, by decide⟩
  obtain ⟨-, hthin, hreset⟩ := config_round_trip c hfinite
  exact ⟨hfinite, hthin, hreset _ (Tree.thinned_withoutNulls _) (· == "history_capacity")⟩

end LinkTelemetry
