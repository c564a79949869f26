import LinkTelemetry.MetricMap
import LinkTelemetry.NameMap
import Mathlib.Data.List.Nodup
import Mathlib.Data.List.Perm.Basic

/-!
# Tables built from lists

A table is often built by inserting the entries of a list one after the other.
A look-up then finds the last entry of its key, whatever kind of table it is
(`get?_foldl`). Where no key occurs twice nothing is lost on the way: every
entry is found, there are as many as the list has, and the entries of a table
build that table again.
-/

namespace LinkTelemetry

section

variable {κ α : Type} [BEq κ] [LawfulBEq κ] {entries : List (κ × α)} {k : κ} {x : α}

theorem lookup_of_mem (hnodup : (entries.map (·.1)).Nodup) (h : (k, x) ∈ entries) :
    entries.lookup k = some x := by
  obtain ⟨before, after, rfl⟩ := List.append_of_mem h
  rw [List.map_append, List.map_cons, List.nodup_append] at hnodup
  obtain ⟨-, -, hdisjoint⟩ := hnodup
  refine List.lookup_eq_some_iff.mpr ⟨before, after, rfl, fun entry hentry => ?_⟩
  rw [bne_iff_ne]
  exact (hdisjoint entry.1 (List.mem_map_of_mem hentry) k List.mem_cons_self).symm

theorem mem_of_lookup (h : entries.lookup k = some x) : (k, x) ∈ entries := by
  obtain ⟨before, after, rfl, -⟩ := List.lookup_eq_some_iff.mp h
  exact List.mem_append_right before List.mem_cons_self

theorem lookup_perm {entries' : List (κ × α)} (hperm : entries'.Perm entries)
    (hnodup : (entries.map (·.1)).Nodup) (k : κ) : entries'.lookup k = entries.lookup k := by
  have hnodup' : (entries'.map (·.1)).Nodup := (hperm.map _).nodup_iff.mpr hnodup
  refine Option.ext fun x => ⟨fun h => ?_, fun h => ?_⟩
  · exact lookup_of_mem hnodup (hperm.mem_iff.mp (mem_of_lookup h))
  · exact lookup_of_mem hnodup' (hperm.mem_iff.mpr (mem_of_lookup h))

theorem lookup_reverse (hnodup : (entries.map (·.1)).Nodup) :
    entries.reverse.lookup k = some x ↔ (k, x) ∈ entries := by
  constructor
  · exact fun h => List.mem_reverse.mp (mem_of_lookup h)
  · intro h
    refine lookup_of_mem ?_ (List.mem_reverse.mpr h)
    rw [List.map_reverse, List.nodup_reverse]
    exact hnodup

/-- The last entry of a key counts. -/
theorem get?_foldl {μ : Type} (get? : μ → κ → Option α) (insert : μ → κ → α → μ)
    (hself : ∀ map k x, get? (insert map k x) k = some x)
    (hother : ∀ map k l x, l ≠ k → get? (insert map k x) l = get? map l)
    (entries : List (κ × α)) (map : μ) (k : κ) :
    get? (entries.foldl (fun map entry => insert map entry.1 entry.2) map) k =
      (entries.reverse.lookup k).or (get? map k) := by
  induction entries generalizing map with
  | nil => rfl
  | cons entry rest ih =>
      obtain ⟨l, y⟩ := entry
      rw [List.foldl_cons, ih, List.reverse_cons, List.lookup_append, Option.or_assoc,
        List.lookup_cons, List.lookup_nil]
      by_cases h : k = l
      · rw [h, hself, beq_self_eq_true, Option.some_or]
      · rw [hother _ _ _ _ h, beq_false_of_ne h, Option.none_or]

end

section

variable {σ ρ α : Type}

theorem getLast?_filterMap_cons (told : ρ → Option α) (r : ρ) (rest : List ρ) :
    ((r :: rest).filterMap told).getLast? = (rest.filterMap told).getLast?.or (told r) := by
  rw [List.filterMap_cons]
  cases told r with
  | none => rw [Option.or_none]
  | some x =>
      simp only [List.getLast?_cons]
      cases (List.filterMap told rest).getLast? <;> rfl

theorem isSome_getLast?_filterMap {told : ρ → Option α} {records : List ρ} :
    (records.filterMap told).getLast?.isSome ↔ ∃ r ∈ records, (told r).isSome := by
  rw [List.getLast?_isSome, Ne, List.filterMap_eq_nil_iff, not_forall]
  simp only [Classical.not_imp, Option.ne_none_iff_isSome, ← Ne.eq_def]

/-- What a record told is the last word where later ones only repeat it. -/
theorem getLast?_filterMap_of_repeated {told : ρ → Option α} {r : ρ} {x : α}
    {before after : List ρ} (hr : told r = some x)
    (hafter : ∀ r' ∈ after, ∀ y, told r' = some y → y = x) :
    ((before ++ r :: after).filterMap told).getLast? = some x := by
  rw [List.filterMap_append, List.getLast?_append, getLast?_filterMap_cons, hr]
  cases hlast : (after.filterMap told).getLast? with
  | none => rfl
  | some y =>
      obtain ⟨r', hmem, htold⟩ := List.mem_filterMap.mp (List.mem_of_getLast? hlast)
      rw [hafter r' hmem y htold]
      rfl

/-- Where each record has a say in one thing or none, the last that has one
decides. -/
theorem get_foldl (get : σ → Option α) {step : σ → ρ → σ} {told : ρ → Option α}
    (hstep : ∀ s r, get (step s r) = (told r).or (get s)) (records : List ρ) (s : σ) :
    get (records.foldl step s) = (records.filterMap told).getLast?.or (get s) := by
  induction records generalizing s with
  | nil => rfl
  | cons r rest ih =>
      rw [List.foldl_cons, ih, hstep, getLast?_filterMap_cons, Option.or_assoc]

end

namespace NameMap

variable {α : Type} {map : NameMap α} {e : String} {x : α}

theorem find_eq_lookup (e : String) (entries : List (String × α)) :
    find e entries = entries.lookup e := by
  induction entries with
  | nil => rfl
  | cons entry rest ih =>
      obtain ⟨k, y⟩ := entry
      rw [find, List.lookup_cons, ih]
      by_cases h : k = e
      · rw [if_pos h, beq_iff_eq.mpr h.symm]
      · rw [if_neg h, beq_false_of_ne (Ne.symm h)]

theorem keys_nodup (map : NameMap α) : (map.entries.map (·.1)).Nodup := by
  refine List.Pairwise.imp (fun {a b} hlt => ?_) map.keys_sorted
  rintro rfl
  exact String.lt_irrefl a hlt

theorem mem_entries : (e, x) ∈ map.entries ↔ map.get? e = some x := by
  rw [get?, find_eq_lookup]
  exact ⟨lookup_of_mem map.keys_nodup, mem_of_lookup⟩

/-- A map is determined by what is found in it. -/
theorem eq_of_get? {a b : NameMap α} (h : ∀ e, a.get? e = b.get? e) : a = b := by
  have hmem : ∀ entry, entry ∈ a.entries ↔ entry ∈ b.entries := fun (e, x) => by
    rw [mem_entries, mem_entries, h]
  have hperm : a.entries.Perm b.entries :=
    (List.perm_ext_iff_of_nodup a.keys_nodup.of_map b.keys_nodup.of_map).mpr hmem
  have heq : a.entries = b.entries := by
    refine hperm.eq_of_pairwise (fun x y _ _ hxy hyx => ?_) a.sorted b.sorted
    exact absurd hyx (String.lt_asymm hxy)
  cases a
  cases b
  cases heq
  rfl

theorem get?_ofList (entries : List (String × α)) (e : String) :
    (ofList entries).get? e = entries.reverse.lookup e := by
  have h := get?_foldl get? insert (fun map k x => by simp)
    (fun map k l x hne => by simp [hne]) entries empty e
  rwa [get?_empty, Option.or_none] at h

theorem get?_ofList_iff {entries : List (String × α)} (hnodup : (entries.map (·.1)).Nodup) :
    (ofList entries).get? e = some x ↔ (e, x) ∈ entries := by
  rw [get?_ofList, lookup_reverse hnodup]

theorem ofList_entries (map : NameMap α) : ofList map.entries = map := by
  refine eq_of_get? fun e => Option.ext fun x => ?_
  rw [get?_ofList_iff map.keys_nodup, mem_entries]

theorem length_place {entries : List (String × α)} (h : e ∉ entries.map (·.1)) :
    (place e x entries).length = entries.length + 1 := by
  induction entries with
  | nil => rfl
  | cons entry rest ih =>
      obtain ⟨k, y⟩ := entry
      rw [List.map_cons, List.mem_cons, not_or] at h
      rw [place, if_neg h.1]
      split
      · rfl
      · rw [List.length_cons, ih h.2, List.length_cons]

theorem size_insert (h : map.get? e = none) : (map.insert e x).size = map.size + 1 := by
  refine length_place fun hmem => ?_
  have hsome : (map.get? e).isSome := isSome_find.mpr hmem
  rw [h] at hsome
  cases hsome

theorem size_foldl_insert (entries : List (String × α)) (map : NameMap α)
    (hnodup : (entries.map (·.1)).Nodup) (hnew : ∀ e ∈ entries.map (·.1), map.get? e = none) :
    (entries.foldl (fun map (e, x) => map.insert e x) map).size = map.size + entries.length := by
  induction entries generalizing map with
  | nil => rfl
  | cons entry rest ih =>
      obtain ⟨k, y⟩ := entry
      rw [List.map_cons, List.nodup_cons] at hnodup
      have hk : map.get? k = none := hnew k List.mem_cons_self
      rw [List.foldl_cons, ih _ hnodup.2, size_insert hk, List.length_cons]
      · omega
      · intro e he
        have hne : e ≠ k := fun heq => hnodup.1 (heq ▸ he)
        rw [get?_insert, if_neg hne]
        exact hnew e (List.mem_cons_of_mem k he)

theorem size_ofList {entries : List (String × α)} (hnodup : (entries.map (·.1)).Nodup) :
    (ofList entries).size = entries.length := by
  have hsize := size_foldl_insert entries empty hnodup fun _ _ => rfl
  have hempty : (empty : NameMap α).size = 0 := rfl
  rw [ofList, hsize, hempty, Nat.zero_add]

end NameMap

namespace MetricMap

variable {α : Type} {map : MetricMap α} {m : Metric} {x : α}

theorem keys_toList (map : MetricMap α) : map.toList.map (·.1) = map.keys := by
  rw [toList, keys, List.map_filterMap, ← List.filterMap_eq_filter]
  refine List.filterMap_congr fun m _ => ?_
  cases h : map.get? m <;> simp [contains, h, Option.guard]

theorem keys_toList_nodup (map : MetricMap α) : (map.toList.map (·.1)).Nodup := by
  have hall : Metric.all.Nodup := by decide
  rw [keys_toList]
  exact hall.filter _

theorem get?_ofList (entries : List (Metric × α)) (m : Metric) :
    (ofList entries).get? m = entries.reverse.lookup m := by
  have h := get?_foldl get? insert (fun map k x => by simp)
    (fun map k l x hne => by simp [hne]) entries empty m
  rwa [get?_empty, Option.or_none] at h

theorem ofList_of_mem_iff {entries : List (Metric × α)} (hnodup : (entries.map (·.1)).Nodup)
    (h : ∀ m x, (m, x) ∈ entries ↔ map.get? m = some x) : ofList entries = map := by
  refine ext fun m => Option.ext fun x => ?_
  rw [get?_ofList, lookup_reverse hnodup, h]

end MetricMap

end LinkTelemetry
