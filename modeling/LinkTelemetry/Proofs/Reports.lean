import LinkTelemetry.Collector.Cycle
import LinkTelemetry.Proofs.Assembly

/-!
# What is reported of a pair

All pairs share one list of failing pairs and one log. A cycle goes through
the list twice, to take out the recovered pairs and to put in the failed
ones, and still a pair only ever meets its own entry: after a cycle it is
failing exactly if its own sample failed, and the reports about it are the
one that its own sample calls for, if any.
-/

namespace LinkTelemetry

/-- The report that a sample calls for, of a pair that had been failing or
not. -/
def Report.about? (failing : Bool) (p : Pair) : Sample → Option Report
  | .ok _ => if failing then some (.recovered p) else none
  | .error cause => some (if failing then .stillFailing p cause else .failed p cause)

namespace Collector

variable (c : Collector) (outcomes : Outcomes)

theorem mem_recovered (p : Pair) :
    p ∈ c.recovered outcomes ↔ p ∈ c.pairs ∧ failed outcomes p = false ∧ c.isFailing p := by
  rw [recovered, List.mem_filter, Bool.and_eq_true, Bool.not_eq_true']

theorem isFailing_iff (p : Pair) : c.isFailing p ↔ p ∈ c.failing := List.contains_iff_mem

theorem mem_failingAfter (p : Pair) :
    p ∈ c.failingAfter outcomes ↔
      (c.isFailing p ∧ p ∉ c.recovered outcomes) ∨ (p ∈ c.pairs ∧ failed outcomes p) := by
  simp only [failingAfter, List.mem_append, List.mem_filter, Bool.and_eq_true,
    Bool.not_eq_true', List.contains_eq_mem, decide_eq_false_iff_not, isFailing_iff]
  tauto

theorem isFailing_after (stamp : Float) {p : Pair} (hp : p ∈ c.pairs) :
    (c.after stamp outcomes).isFailing p = failed outcomes p := by
  rw [Bool.eq_iff_iff, isFailing_iff]
  show p ∈ c.failingAfter outcomes ↔ _
  rw [mem_failingAfter, mem_recovered]
  cases hfailed : failed outcomes p with
  | true => exact ⟨fun _ => rfl, fun _ => .inr ⟨hp, rfl⟩⟩
  | false =>
      constructor
      · rintro (⟨hfailing, hrecovered⟩ | ⟨-, hfalse⟩)
        · exact absurd ⟨hp, rfl, hfailing⟩ hrecovered
        · exact hfalse
      · intro hfalse
        cases hfalse

theorem pair_of_failure? {p : Pair} {report : Report}
    (h : c.failure? outcomes p = some report) : report.pair = p := by
  rw [failure?] at h
  split at h
  · cases h
  · split at h <;> cases h <;> rfl

theorem filter_pairs {p : Pair} (hp : p ∈ c.pairs) : c.pairs.filter (· = p) = [p] := by
  rw [List.filter_eq, List.count_eq_one_of_mem c.pairs_nodup hp]
  rfl

theorem filter_failures {p : Pair} (hp : p ∈ c.pairs) :
    (c.pairs.filterMap (c.failure? outcomes)).filter (·.pair = p) =
      (c.failure? outcomes p).toList := by
  have hown : (fun q => (c.failure? outcomes q).filter (·.pair = p)) =
      fun q => if decide (q = p) then c.failure? outcomes q else none := by
    funext q
    cases h : c.failure? outcomes q with
    | none => exact (ite_self _).symm
    | some report => simp [Option.filter, c.pair_of_failure? outcomes h]
  rw [List.filter_filterMap, hown, ← List.filterMap_filter, c.filter_pairs hp]
  cases h : c.failure? outcomes p <;> simp [h]

theorem filter_recoveries {p : Pair} (hp : p ∈ c.pairs) :
    ((c.recovered outcomes).map Report.recovered).filter (·.pair = p) =
      if failed outcomes p = false ∧ c.isFailing p then [.recovered p] else [] := by
  rw [List.filter_map]
  show List.map _ ((c.recovered outcomes).filter (· = p)) = _
  rw [recovered, List.filter_filter, @List.filter_congr _ _ _ c.pairs fun q _ => Bool.and_comm ..,
    ← List.filter_filter, c.filter_pairs hp]
  cases hfailed : failed outcomes p <;> cases hfailing : c.isFailing p <;>
    simp [hfailed, hfailing]

/-- A cycle reports of a pair what its own sample calls for. -/
theorem filter_reports {p : Pair} (hp : p ∈ c.pairs) :
    (c.reports outcomes).filter (·.pair = p) =
      (Report.about? (c.isFailing p) p (outcomes p.1 p.2)).toList := by
  rw [reports, List.filter_append, c.filter_failures outcomes hp, c.filter_recoveries outcomes hp]
  cases h : outcomes p.1 p.2 with
  | ok v => cases c.isFailing p <;> simp [failure?, failed, Report.about?, h]
  | error cause => simp [failure?, failed, Report.about?, h]

end Collector

namespace Monitor

/-- The reports of a run, cycle by cycle. -/
def reportsOver (m : Monitor) : List Cycle → List Report
  | [] => []
  | cycle :: rest =>
    m.collector.reports cycle.outcomes ++ (m.cycle cycle.stamp cycle.outcomes).reportsOver rest

/-- A run adds its reports to the log and nothing else. -/
theorem log_after (m : Monitor) (cycles : List Cycle) :
    (m.after cycles).log = m.log ++ (m.reportsOver cycles).map Report.line := by
  induction cycles generalizing m with
  | nil => exact (List.append_nil _).symm
  | cons cycle rest ih =>
      rw [after_cons, ih, reportsOver, List.map_append, ← List.append_assoc]
      rfl

end Monitor

end LinkTelemetry
