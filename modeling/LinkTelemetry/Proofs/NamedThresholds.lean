import LinkTelemetry.Proofs.ByteOrder
import LinkTelemetry.Proofs.Framing
import LinkTelemetry.Proofs.Outcomes
import LinkTelemetry.Proofs.RoundTrip

/-!
# Thresholds under names that people write

Many spellings mean one metric (`Metric.normalize_eq_iff`), so a file can hold
thresholds of a metric more than once, and it can hold some of none. The names
are gone over in the order of their bytes: the first that is no metric's is
reported, and of several for one metric the last one counts. Both follow from
what can be said about one entry (`thresholdOf_eq_ok`, `thresholdOf_eq_error`)
and the order of the names.

Written out again, a table has the names of the documents only, and nothing
changes from then on.
-/

namespace LinkTelemetry

/-! ## What a name means -/

namespace Metric

variable {text : String} {m : Metric}

/-- How a character of a name stands in the documents. -/
inductive Lowered : Char → Char → Prop where
  | hyphen : Lowered '-' '_'
  | capital {c d : Char} (hc : 'A' ≤ c ∧ c ≤ 'Z') (hd : d.toNat = c.toNat + 32) : Lowered c d
  | same {c : Char} (hhyphen : c ≠ '-') (hcapital : ¬ ('A' ≤ c ∧ c ≤ 'Z')) : Lowered c c

theorem toNat_toLower {c : Char} (h : 'A' ≤ c ∧ c ≤ 'Z') : c.toLower.toNat = c.toNat + 32 := by
  have hlower : c.toLower.toNat = (c.val + 32).toNat := congrArg Char.toNat (dif_pos h)
  rw [hlower]
  have hle : c.val.toNat ≤ 90 := UInt32.le_iff_toNat_le.mp h.2
  have hlt : c.val.toNat + 32 < 2 ^ 32 := by omega
  exact (UInt32.toNat_add c.val 32).trans (Nat.mod_eq_of_lt hlt)

theorem lowered_iff {c d : Char} :
    Lowered c d ↔ (if c == '-' then '_' else c.toLower) = d := by
  by_cases hhyphen : c = '-'
  · subst hhyphen
    constructor
    · intro h
      cases h with
      | hyphen => rfl
      | capital hc => exact absurd hc (by decide)
      | same h => exact absurd rfl h
    · rintro rfl
      exact .hyphen
  · rw [if_neg (by simpa using hhyphen)]
    by_cases hcapital : 'A' ≤ c ∧ c ≤ 'Z'
    · constructor
      · intro h
        cases h with
        | hyphen => exact absurd rfl hhyphen
        | capital _ hd => exact Char.toNat_inj.mp ((toNat_toLower hcapital).trans hd.symm)
        | same _ h => exact absurd hcapital h
      · rintro rfl
        exact .capital hcapital (toNat_toLower hcapital)
    · have hkept : c.toLower = c := dif_neg hcapital
      rw [hkept]
      constructor
      · intro h
        cases h with
        | hyphen => exact absurd rfl hhyphen
        | capital h => exact absurd h hcapital
        | same => rfl
      · rintro rfl
        exact .same hhyphen hcapital

/-- The form of the documents is what is left between the blanks of a name,
character by character. -/
theorem normalize_eq_iff {name : String} :
    normalize text = name ↔ ∃ bare, Text.Stripped Text.isBlank bare text.toList ∧
      List.Forall₂ Lowered bare name.toList := by
  have hname : normalize text = name ↔
      List.Forall₂ Lowered (Text.trim text.toList) name.toList := by
    rw [normalize, ← String.toList_inj, String.toList_ofList, ← List.forall₂_eq_eq_eq,
      List.forall₂_map_left_iff]
    simp only [← lowered_iff]
  rw [hname]
  constructor
  · exact fun h => ⟨_, Text.stripped_stripWhile .., h⟩
  · rintro ⟨bare, hbare, h⟩
    rwa [Text.trim, Text.stripWhile_eq_iff.mpr hbare]

/-- No metric is meant by a name. -/
def Unnamed (text : String) : Prop := ∀ m : Metric, normalize text ≠ m.name

theorem parse?_eq_some : parse? text = some m ↔ normalize text = m.name := by
  constructor
  · intro h
    rw [parse?, ofName?] at h
    have hname := List.find?_some h
    exact (beq_iff_eq.mp hname).symm
  · intro h
    rw [parse?, h, ofName?_name]

theorem parse?_eq_none : parse? text = none ↔ Unnamed text := by
  rw [Option.eq_none_iff_forall_ne_some]
  exact forall_congr' fun _ => not_congr parse?_eq_some

instance : DecidablePred Unnamed := fun _ => decidable_of_iff _ parse?_eq_none

end Metric

open LinkTelemetry.Metric (Unnamed normalize)

namespace ThresholdTable

/-- What an entry says under its name, or the name. -/
def thresholdOf (entry : String × Thresholds) : Except String (Metric × Thresholds) :=
  match Metric.parse? entry.1 with
  | some m => .ok (m, entry.2)
  | none => .error entry.1

theorem ofNamed_eq (entries : List (String × Thresholds)) :
    ofNamed entries = MetricMap.ofList <$> entries.mapM thresholdOf := rfl

section

variable {entry : String × Thresholds} {key : String} {m : Metric} {t : Thresholds}

theorem thresholdOf_eq_ok :
    thresholdOf entry = .ok (m, t) ↔ normalize entry.1 = m.name ∧ entry.2 = t := by
  rw [← Metric.parse?_eq_some, thresholdOf]
  cases Metric.parse? entry.1 <;> simp

theorem thresholdOf_eq_error :
    thresholdOf entry = .error key ↔ Unnamed entry.1 ∧ entry.1 = key := by
  rw [← Metric.parse?_eq_none, thresholdOf]
  cases Metric.parse? entry.1 <;> simp

end

/-! ## The name that is reported, and the one that counts -/

section

variable {raw : NameMap Thresholds} {table : ThresholdTable} {key : String} {m : Metric}
  {t : Thresholds}

/-- The first of the names that are no metric's. -/
@[mk_iff]
structure Reported (raw : NameMap Thresholds) (key : String) : Prop where
  mem : key ∈ raw.keys
  unnamed : Unnamed key
  least : ∀ other ∈ raw.keys, Unnamed other → Text.toBytes key ≤ Text.toBytes other

/-- The last of the names of a metric. -/
@[mk_iff]
structure Counting (raw : NameMap Thresholds) (m : Metric) (key : String) : Prop where
  mem : key ∈ raw.keys
  names : normalize key = m.name
  greatest : ∀ other ∈ raw.keys, normalize other = m.name →
    Text.toBytes other ≤ Text.toBytes key

instance : Decidable (Reported raw key) := decidable_of_iff' _ (reported_iff raw key)

instance : Decidable (Counting raw m key) := decidable_of_iff' _ (counting_iff raw m key)

theorem ofNamed_eq_error : ofNamed raw.entries = .error key ↔ Reported raw key := by
  have hsplit : ofNamed raw.entries = .error key ↔
      raw.entries.mapM thresholdOf = .error key := by
    rw [ofNamed_eq]
    cases raw.entries.mapM thresholdOf <;> simp
  rw [hsplit, mapM_eq_error]
  constructor
  · rintro ⟨before, entry, after, hentries, hbefore, hentry⟩
    obtain ⟨hunnamed, rfl⟩ := thresholdOf_eq_error.mp hentry
    have hsorted := raw.sorted
    rw [hentries, List.pairwise_append, List.pairwise_cons] at hsorted
    refine ⟨?_, hunnamed, ?_⟩
    · show entry.1 ∈ raw.entries.map (·.1)
      simp [hentries]
    · intro other hother hno
      obtain ⟨e, he, rfl⟩ := List.mem_map.mp hother
      rw [Text.toBytes_le_toBytes_iff]
      rw [hentries, List.mem_append, List.mem_cons] at he
      rcases he with he | rfl | he
      · obtain ⟨⟨m, t⟩, hok⟩ := hbefore e he
        exact absurd (thresholdOf_eq_ok.mp hok).1 (hno m)
      · exact le_refl _
      · exact (hsorted.2.1.1 e he).le
  · intro h
    obtain ⟨entry, hmem, rfl⟩ := List.mem_map.mp h.mem
    obtain ⟨before, after, hentries⟩ := List.append_of_mem hmem
    refine ⟨before, entry, after, hentries, ?_, thresholdOf_eq_error.mpr ⟨h.unnamed, rfl⟩⟩
    have hsorted := raw.sorted
    rw [hentries, List.pairwise_append] at hsorted
    intro e he
    cases hread : thresholdOf e with
    | ok x => exact ⟨x, rfl⟩
    | error name =>
        obtain ⟨hno, rfl⟩ := thresholdOf_eq_error.mp hread
        have hkey : e.1 ∈ raw.keys := by
          show e.1 ∈ raw.entries.map (·.1)
          simp [hentries, List.mem_map_of_mem he]
        have hle := Text.toBytes_le_toBytes_iff.mp (h.least e.1 hkey hno)
        exact absurd (hsorted.2.2 e he entry List.mem_cons_self) (not_lt.mpr hle)

/-- Going backwards, the first entry of a metric has the greatest of its names. -/
theorem lookup_of_descending {entries : List (String × Thresholds)}
    {read : List (Metric × Thresholds)}
    (h : List.Forall₂ (fun entry out => thresholdOf entry = .ok out) entries read)
    (hsorted : entries.Pairwise fun a b => b.1 < a.1) :
    read.lookup m = some t ↔ ∃ key, (key, t) ∈ entries ∧ normalize key = m.name ∧
      ∀ entry ∈ entries, normalize entry.1 = m.name → entry.1 ≤ key := by
  induction h with
  | nil => simp
  | @cons entry out entries read hentry _ ih =>
      obtain ⟨key, u⟩ := entry
      obtain ⟨n, u'⟩ := out
      obtain ⟨hname, rfl⟩ := thresholdOf_eq_ok.mp hentry
      obtain ⟨hhead, hrest⟩ := List.pairwise_cons.mp hsorted
      by_cases hm : m = n
      · subst hm
        simp only [List.lookup_cons, beq_self_eq_true, Option.some.injEq]
        constructor
        · rintro rfl
          refine ⟨key, List.mem_cons_self, hname, List.forall_mem_cons.mpr ⟨fun _ => le_refl _, ?_⟩⟩
          exact fun e he _ => (hhead e he).le
        · rintro ⟨other, hmem, -, hgreatest⟩
          rcases List.mem_cons.mp hmem with heq | hmem
          · cases heq
            rfl
          · have hle := hgreatest (key, u) List.mem_cons_self hname
            exact absurd (hhead _ hmem) (not_lt.mpr hle)
      · have hother : normalize key ≠ m.name :=
          fun h => hm (Metric.name_injective (h.symm.trans hname))
        simp only [List.lookup_cons, beq_false_of_ne hm, ih hrest]
        constructor
        · rintro ⟨k, hmem, hk, hgreatest⟩
          refine ⟨k, List.mem_cons_of_mem _ hmem, hk, List.forall_mem_cons.mpr ⟨?_, hgreatest⟩⟩
          exact fun h => absurd h hother
        · rintro ⟨k, hmem, hk, hgreatest⟩
          rcases List.mem_cons.mp hmem with heq | hmem
          · cases heq
            exact absurd hk hother
          · exact ⟨k, hmem, hk, (List.forall_mem_cons.mp hgreatest).2⟩

theorem lookup_eq_none_of_read {entries : List (String × Thresholds)}
    {read : List (Metric × Thresholds)}
    (h : List.Forall₂ (fun entry out => thresholdOf entry = .ok out) entries read) :
    read.lookup m = none ↔ ∀ entry ∈ entries, normalize entry.1 ≠ m.name := by
  induction h with
  | nil => simp
  | @cons entry out entries read hentry _ ih =>
      rw [List.lookup_cons, List.forall_mem_cons, (thresholdOf_eq_ok.mp hentry).1, ← ih]
      by_cases hm : m = out.1
      · simp [hm]
      · have hname : out.1.name ≠ m.name := fun h => hm (Metric.name_injective h.symm)
        simp [beq_false_of_ne hm, hname]

/-- Every entry is read, and the last one of a metric is found. -/
theorem exists_read (h : ofNamed raw.entries = .ok table) :
    ∃ read, List.Forall₂ (fun entry out => thresholdOf entry = .ok out) raw.entries.reverse read ∧
      ∀ m, table.get? m = read.lookup m := by
  rw [ofNamed_eq] at h
  cases hread : raw.entries.mapM thresholdOf with
  | error key =>
      rw [hread] at h
      cases h
  | ok read =>
      rw [hread] at h
      cases h
      refine ⟨read.reverse, ?_, MetricMap.get?_ofList read⟩
      exact List.rel_reverse (forall₂_of_mapM_eq_ok hread)

theorem ofNamed_fails_iff :
    (∃ key, ofNamed raw.entries = .error key) ↔ ∃ key ∈ raw.keys, Unnamed key := by
  constructor
  · rintro ⟨key, h⟩
    have hreported := ofNamed_eq_error.mp h
    exact ⟨key, hreported.mem, hreported.unnamed⟩
  · rintro ⟨key, hmem, hunnamed⟩
    cases hread : ofNamed raw.entries with
    | error other => exact ⟨other, rfl⟩
    | ok table =>
        obtain ⟨entry, hentry, rfl⟩ := List.mem_map.mp hmem
        obtain ⟨read, hall, -⟩ := exists_read hread
        have hnamed : List.Forall₂ (fun e out => ¬Unnamed e.1 ∧ thresholdOf e = .ok out)
            raw.entries.reverse read :=
          hall.imp fun e out h => ⟨fun hno => hno out.1 (thresholdOf_eq_ok.mp h).1, h⟩
        exact absurd hunnamed
          (((List.forall₂_and_left _ _).mp hnamed).1 entry (List.mem_reverse.mpr hentry))

theorem get?_eq_some_of_ofNamed (h : ofNamed raw.entries = .ok table) :
    table.get? m = some t ↔ ∃ key, Counting raw m key ∧ raw.get? key = some t := by
  obtain ⟨read, hall, hget⟩ := exists_read h
  rw [hget, lookup_of_descending hall (List.pairwise_reverse.mpr raw.sorted)]
  constructor
  · rintro ⟨key, hmem, hname, hgreatest⟩
    have hmem := List.mem_reverse.mp hmem
    refine ⟨key, ⟨List.mem_map_of_mem hmem, hname, ?_⟩, NameMap.mem_entries.mp hmem⟩
    intro other hother hsame
    obtain ⟨e, he, rfl⟩ := List.mem_map.mp hother
    exact Text.toBytes_le_toBytes_iff.mpr (hgreatest e (List.mem_reverse.mpr he) hsame)
  · rintro ⟨key, h, hkey⟩
    refine ⟨key, List.mem_reverse.mpr (NameMap.mem_entries.mpr hkey), h.names, ?_⟩
    intro e he hsame
    have hother : e.1 ∈ raw.keys := List.mem_map_of_mem (List.mem_reverse.mp he)
    exact Text.toBytes_le_toBytes_iff.mp (h.greatest e.1 hother hsame)

theorem get?_eq_none_of_ofNamed (h : ofNamed raw.entries = .ok table) :
    table.get? m = none ↔ ∀ key ∈ raw.keys, normalize key ≠ m.name := by
  obtain ⟨read, hall, hget⟩ := exists_read h
  rw [hget, lookup_eq_none_of_read hall]
  simp [NameMap.keys]

end

/-! ## Written out again -/

/-- A map of thresholds under names, read and written out again. -/
def rewritten (raw : NameMap Thresholds) : Except String (NameMap Thresholds) :=
  Codec.named <$> ofNamed raw.entries

theorem keys_named {table : ThresholdTable} {key : String} (h : key ∈ (Codec.named table).keys) :
    ∃ m : Metric, key = m.name := by
  obtain ⟨entry, hmem, rfl⟩ := List.mem_map.mp h
  obtain ⟨m, t, rfl, -⟩ := Codec.mem_named.mp hmem
  exact ⟨m, rfl⟩

theorem exists_of_rewritten {raw out : NameMap Thresholds} (h : rewritten raw = .ok out) :
    ∃ table, out = Codec.named table := by
  rw [rewritten] at h
  cases hread : ofNamed raw.entries with
  | error key =>
      rw [hread] at h
      cases h
  | ok table =>
      rw [hread] at h
      cases h
      exact ⟨table, rfl⟩

theorem rewritten_named (table : ThresholdTable) :
    rewritten (Codec.named table) = .ok (Codec.named table) := by
  rw [rewritten, Codec.ofNamed_named]
  rfl

/-- A map of thresholds under names is refused exactly if some name is no
metric's, and the first of them in the order of bytes is reported. Otherwise
the last name of a metric in that order counts, and a metric without a name has
no thresholds. A table is read back from the names it is written under, and
what is written has the names of the documents and is not changed again. -/
theorem ofNamed_of_spellings (raw : NameMap Thresholds) :
    ((∃ key, ofNamed raw.entries = .error key) ↔ ∃ key ∈ raw.keys, Unnamed key) ∧
    (∀ key, ofNamed raw.entries = .error key ↔ Reported raw key) ∧
    (∀ table, ofNamed raw.entries = .ok table → ∀ m,
      (∀ t, table.get? m = some t ↔ ∃ key, Counting raw m key ∧ raw.get? key = some t) ∧
      (table.get? m = none ↔ ∀ key ∈ raw.keys, normalize key ≠ m.name)) ∧
    (∀ table, ofNamed (Codec.named table).entries = .ok table) ∧
    ∀ out, rewritten raw = .ok out →
      (∀ key ∈ out.keys, ∃ m : Metric, key = m.name) ∧ rewritten out = .ok out := by
  refine ⟨ofNamed_fails_iff, fun _ => ofNamed_eq_error, ?_, Codec.ofNamed_named, ?_⟩
  · exact fun _ h m => ⟨fun _ => get?_eq_some_of_ofNamed h, get?_eq_none_of_ofNamed h⟩
  · intro out h
    obtain ⟨table, rfl⟩ := exists_of_rewritten h
    exact ⟨fun _ => keys_named, rewritten_named table⟩

/-- The load of the processor is spelled three ways and the last one in the
order of bytes counts; of two unknown names the one with the capital is first. -/
theorem ofNamed_of_clashing_spellings :
    let raw : NameMap Thresholds := .ofList
      [("cpu-percent", ⟨10, 20⟩), ("CPU_Percent", ⟨30, 40⟩), (" cpu_percent ", ⟨50, 60⟩),
        ("LATENCY-ms", ⟨70, 80⟩)]
    (∃ table, ofNamed raw.entries = .ok table ∧ table.get? .cpuPercent = some ⟨10, 20⟩ ∧
      table.get? .latencyMs = some ⟨70, 80⟩ ∧ table.get? .bytesIn = none) ∧
    (∃ out, rewritten raw = .ok out ∧ rewritten out = .ok out) ∧
    ofNamed ((raw.insert "uptime" ⟨1, 2⟩).insert "Uptime" ⟨3, 4⟩).entries = .error "Uptime" := by
  intro raw
  obtain ⟨hfails, -, hget, -, hagain⟩ := ofNamed_of_spellings raw
  have hknown : ¬∃ key ∈ raw.keys, Unnamed key := by decide +kernel
  obtain ⟨table, h⟩ : ∃ table, ofNamed raw.entries = .ok table := by
    cases h : ofNamed raw.entries with
    | error key => exact absurd (hfails.mp ⟨key, h⟩) hknown
    | ok table => exact ⟨table, rfl⟩
  refine ⟨⟨table, h, ?_, ?_, ?_⟩, ⟨Codec.named table, ?_⟩, ?_⟩
  · have hcounting : Counting raw .cpuPercent "cpu-percent" := by decide +kernel
    exact ((hget table h .cpuPercent).1 _).mpr ⟨_, hcounting, rfl⟩
  · have hcounting : Counting raw .latencyMs "LATENCY-ms" := by decide +kernel
    exact ((hget table h .latencyMs).1 _).mpr ⟨_, hcounting, rfl⟩
  · exact (hget table h .bytesIn).2.mpr (by decide +kernel)
  · have hout : rewritten raw = .ok (Codec.named table) := by
      rw [rewritten, h]
      rfl
    exact ⟨hout, (hagain _ hout).2⟩
  · obtain ⟨-, hreported, -⟩ :=
      ofNamed_of_spellings ((raw.insert "uptime" ⟨1, 2⟩).insert "Uptime" ⟨3, 4⟩)
    exact (hreported "Uptime").mpr (by decide +kernel)

end ThresholdTable

end LinkTelemetry
