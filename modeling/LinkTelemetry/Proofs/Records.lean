import LinkTelemetry.Proofs.Tables
import LinkTelemetry.Snapshot

/-!
# What a snapshot keeps while it grows

Snapshots are built by one call after the other, in any order and with any
metric any number of times. What can be read of a metric in the end is what was
recorded of it last (`value?_built`, `rate?_built`). A metric that was once
marked as stale stays marked (`isStale_built`), and whatever is recorded for it
later replaces its value but does not take it away, so neither a rate nor a mark
ever stands without a value.
-/

namespace LinkTelemetry.Snapshot

/-- A call that records something in a snapshot. -/
inductive Record where
  | value (m : Metric) (level : Float)
  | counter (m : Metric) (total rate : Float)
  | stale (m : Metric)

def record (s : Snapshot) : Record → Snapshot
  | .value m level => s.recordValue m level
  | .counter m total rate => s.recordCounter m total rate
  | .stale m => s.recordStale m

/-- A snapshot that came from an empty one by some calls. -/
def IsBuilt (s : Snapshot) : Prop :=
  ∃ (e : EndpointName) (stamp : Float) (records : List Record),
    s = records.foldl record (start e stamp)

/-! ## What a call says of a metric -/

namespace Record

def metric : Record → Metric
  | value m _ | counter m _ _ | stale m => m

def level? (n : Metric) : Record → Option Float
  | value m level => if m = n then some level else none
  | counter m total _ => if m = n then some total else none
  | stale m => if m = n then some 0 else none

def rate? (n : Metric) : Record → Option Float
  | value _ _ => none
  | counter m _ rate => if m = n then some rate else none
  | stale m => if m = n ∧ m.isCounter then some 0 else none

variable {r : Record} {m : Metric}

theorem isSome_level?_iff : (r.level? m).isSome ↔ r.metric = m := by
  cases r <;> simp [level?, metric]

/-- A call with a rate is for this metric, and it is of one of two kinds. -/
theorem eq_of_rate? (h : (r.rate? m).isSome) :
    (∃ total rate, r = counter m total rate) ∨ r = stale m ∧ m.isCounter := by
  cases r with
  | value => cases h
  | counter n total rate =>
      rw [rate?] at h
      split at h
      · next heq => exact .inl ⟨total, rate, by rw [heq]⟩
      · cases h
  | stale n =>
      rw [rate?] at h
      split at h
      · next hboth => exact .inr ⟨by rw [hboth.1], hboth.1 ▸ hboth.2⟩
      · cases h

theorem metric_of_rate? (h : (r.rate? m).isSome) : r.metric = m := by
  obtain ⟨total, rate, rfl⟩ | ⟨rfl, -⟩ := eq_of_rate? h
  · rfl
  · rfl

end Record

section

variable (s : Snapshot) (r : Record) (n : Metric)

theorem value?_record : (s.record r).value? n = (r.level? n).or (s.value? n) := by
  cases r <;>
    simp only [record, recordValue, recordCounter, recordStale, value?, MetricMap.get?_insert,
      Record.level?, eq_comm (a := n)] <;>
    split <;> rfl

theorem rate?_record : (s.record r).rate? n = (r.rate? n).or (s.rate? n) := by
  cases r with
  | value m level => rfl
  | counter m total rate =>
      simp only [record, recordCounter, rate?, MetricMap.get?_insert, Record.rate?,
        eq_comm (a := n)]
      split <;> rfl
  | stale m =>
      show (if m.isCounter then s.rates.insert m 0 else s.rates).get? n = _
      rw [Record.rate?]
      by_cases hm : m.isCounter
      · simp only [hm, and_true, if_true, MetricMap.get?_insert, eq_comm (a := n)]
        split <;> rfl
      · rw [if_neg hm, if_neg fun h => hm h.2]
        rfl

theorem isStale_record : (s.record r).isStale n ↔ r = .stale n ∨ s.isStale n := by
  cases r with
  | value m level => exact ⟨.inr, fun h => h.resolve_left nofun⟩
  | counter m total rate => exact ⟨.inr, fun h => h.resolve_left nofun⟩
  | stale m =>
      show ((s.stale.insert m ()).get? n).isSome ↔ _
      rw [MetricMap.get?_insert, Record.stale.injEq]
      by_cases h : n = m
      · simp [h]
      · rw [if_neg h]
        exact ⟨.inr, fun hor => hor.resolve_left (Ne.symm h)⟩

end

/-! ## What the calls leave -/

section

variable (e : EndpointName) (stamp : Float) (records : List Record) (m : Metric)

theorem value?_built :
    (records.foldl record (start e stamp)).value? m =
      (records.filterMap (·.level? m)).getLast? := by
  have hstart : (start e stamp).value? m = none := congrArg Cell.value (cell_start e stamp m)
  rw [get_foldl (value? · m) (value?_record · · m), hstart, Option.or_none]

theorem rate?_built :
    (records.foldl record (start e stamp)).rate? m =
      (records.filterMap (·.rate? m)).getLast? := by
  have hstart : (start e stamp).rate? m = none := congrArg Cell.rate (cell_start e stamp m)
  rw [get_foldl (rate? · m) (rate?_record · · m), hstart, Option.or_none]

theorem isStale_built :
    (records.foldl record (start e stamp)).isStale m ↔ .stale m ∈ records := by
  have hgrown : ∀ s : Snapshot,
      (records.foldl record s).isStale m ↔ .stale m ∈ records ∨ s.isStale m := by
    intro s
    induction records generalizing s with
    | nil => simp
    | cons r rest ih =>
        rw [List.foldl_cons, ih, isStale_record, List.mem_cons, eq_comm (a := r)]
        tauto
  have hstart : (start e stamp).isStale m = false := congrArg Cell.stale (cell_start e stamp m)
  rw [hgrown, hstart]
  simp

end

theorem isSome_value?_built {e : EndpointName} {stamp : Float} {records : List Record} {m : Metric}
    (h : ((records.foldl record (start e stamp)).rate? m).isSome ∨
      (records.foldl record (start e stamp)).isStale m) :
    ((records.foldl record (start e stamp)).value? m).isSome := by
  rw [value?_built, isSome_getLast?_filterMap]
  rw [rate?_built, isSome_getLast?_filterMap, isStale_built] at h
  obtain ⟨r, hr, hrate⟩ | hm := h
  · exact ⟨r, hr, Record.isSome_level?_iff.mpr (Record.metric_of_rate? hrate)⟩
  · exact ⟨_, hm, Record.isSome_level?_iff.mpr rfl⟩

/-- Every metric that is marked has a value. -/
def MarksValued (s : Snapshot) : Prop := ∀ m, s.isStale m → (s.value? m).isSome

theorem marksValued_of_isBuilt {s : Snapshot} (h : s.IsBuilt) : s.MarksValued := by
  obtain ⟨e, stamp, records, rfl⟩ := h
  exact fun m hm => isSome_value?_built (.inr hm)

end LinkTelemetry.Snapshot
