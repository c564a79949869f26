import LinkTelemetry.Config.Validation
import LinkTelemetry.Proofs.Outcomes

/-!
# Thresholds written out

A configuration is shown with all thresholds that hold under it, those of its
own and the built-in ones elsewhere. What is shown means the same as what was
given. It is valid if that was, or has the same first fault, because the
thresholds are checked metric by metric and every built-in pair passes.
-/

namespace LinkTelemetry

namespace ThresholdTable

/-! ## Checking metric by metric -/

/-- What is wrong with the thresholds of one metric. -/
def validateAt (table : ThresholdTable) (m : Metric) : Except ConfigError Unit :=
  match table.get? m with
  | some t => t.validate m
  | none => .ok ()

theorem validate_eq_forM (table : ThresholdTable) :
    table.validate = Metric.all.forM table.validateAt := by
  rw [validate, MetricMap.toList]
  generalize Metric.all = metrics
  induction metrics with
  | nil => rfl
  | cons m rest ih =>
      show _ = table.validateAt m >>= fun _ => rest.forM table.validateAt
      rw [validateAt, ← ih]
      cases h : table.get? m with
      | none => rw [List.filterMap_cons_none (by rw [h]; rfl), ok_bind]
      | some t =>
          rw [List.filterMap_cons_some (by rw [h]; rfl)]
          rfl

theorem validateAt_builtin (m : Metric) : builtin.validateAt m = .ok () := by
  cases m <;> rfl

end ThresholdTable

namespace Config

open ThresholdTable (builtin validateAt)

/-! ## Over the built-in thresholds -/

theorem get?_effectiveThresholds (c : Config) (m : Metric) :
    c.effectiveThresholds.get? m = (c.thresholds.get? m).or (builtin.get? m) :=
  MetricMap.get?_merge _ _ m

theorem effectiveThresholds_filledIn (c : Config) :
    c.filledIn.effectiveThresholds = c.effectiveThresholds := by
  refine MetricMap.ext fun m => ?_
  rw [get?_effectiveThresholds]
  show (c.effectiveThresholds.get? m).or _ = _
  rw [get?_effectiveThresholds, Option.or_assoc, Option.or_self]

/-- An own pair is checked as it is, and a built-in one has no fault. -/
theorem validateAt_effectiveThresholds (c : Config) (m : Metric) :
    c.effectiveThresholds.validateAt m = c.thresholds.validateAt m := by
  have hbuiltin := ThresholdTable.validateAt_builtin m
  rw [validateAt] at hbuiltin
  rw [validateAt, validateAt, get?_effectiveThresholds]
  cases c.thresholds.get? m with
  | none => exact hbuiltin
  | some t => rfl

theorem validate_effectiveThresholds (c : Config) :
    c.effectiveThresholds.validate = c.thresholds.validate := by
  rw [ThresholdTable.validate_eq_forM, ThresholdTable.validate_eq_forM]
  exact congrArg _ (funext c.validateAt_effectiveThresholds)

theorem validate_filledIn (c : Config) : c.filledIn.validate = c.validate := by
  have h : c.filledIn.thresholds.validate = c.thresholds.validate := c.validate_effectiveThresholds
  rw [validate, validate, h]
  rfl

theorem validate_thresholds_of_validate {c : Config} (h : c.validate = .ok ()) :
    c.thresholds.validate = .ok () := by
  rw [validate] at h
  repeat' split at h
  all_goals first | cases h | exact h

theorem classify_effectiveThresholds (c : Config) (m : Metric) (x : Float) :
    c.effectiveThresholds.classify m x =
      match c.thresholds.get? m with
      | some t => some (t.classify x)
      | none => builtin.classify m x := by
  rw [ThresholdTable.classify, get?_effectiveThresholds]
  cases c.thresholds.get? m <;> rfl

/-- With its thresholds written out a configuration is the same in all else. It
has the same thresholds and passes the check or fails it with the same fault.
The thresholds of a valid one are valid, and a value is in the band of the
configuration's own thresholds for the metric if there are any, and of the
built-in ones otherwise. -/
theorem filledIn_same_meaning (c : Config) :
    c.filledIn = { c with thresholds := c.effectiveThresholds } ∧
    c.filledIn.effectiveThresholds = c.effectiveThresholds ∧
    c.filledIn.validate = c.validate ∧
    (c.validate = .ok () → c.effectiveThresholds.validate = .ok ()) ∧
    ∀ m x,
      c.effectiveThresholds.classify m x =
        (match c.thresholds.get? m with
        | some t => some (t.classify x)
        | none => builtin.classify m x) ∧
      c.filledIn.effectiveThresholds.classify m x = c.effectiveThresholds.classify m x := by
  refine ⟨rfl, c.effectiveThresholds_filledIn, c.validate_filledIn, ?_, ?_⟩
  · intro h
    rw [validate_effectiveThresholds]
    exact validate_thresholds_of_validate h
  · intro m x
    rw [effectiveThresholds_filledIn]
    exact ⟨c.classify_effectiveThresholds m x, rfl⟩

/-- An own pair for latency counts before the built-in one, and an own pair that
is the wrong way round is reported with its numbers. -/
theorem filledIn_same_meaning_of_own_latency :
    let c : Config := { demo with thresholds := .ofList [(.latencyMs, ⟨20, 50⟩)] }
    let d : Config :=
      { demo with thresholds := .ofList [(.latencyMs, ⟨20, 50⟩), (.memoryPercent, ⟨90, 80⟩)] }
    c.validate = .ok () ∧ c.effectiveThresholds.validate = .ok () ∧
    c.effectiveThresholds.classify .latencyMs 60 = some .critical ∧
    c.filledIn.effectiveThresholds.classify .cpuPercent 60 = some .warning ∧
    d.filledIn.validate = .error (.invalidThresholds .memoryPercent 90 80) := by
  intro c d
  have hvalid : c.validate = .ok () := rfl
  obtain ⟨-, -, -, heffective, hclassify⟩ := filledIn_same_meaning c
  obtain ⟨hlatency, -⟩ := hclassify .latencyMs 60
  obtain ⟨hcpu, hsame⟩ := hclassify .cpuPercent 60
  refine ⟨hvalid, heffective hvalid, hlatency.trans ?_, (hsame.trans hcpu).trans ?_, ?_⟩
  · rfl
  · rfl
  · exact (filledIn_same_meaning d).2.2.1.trans rfl

end Config

end LinkTelemetry
