import LinkTelemetry.Log
import LinkTelemetry.PairMap
import LinkTelemetry.Source.Error

/-!
# Reports

What is said about a pair when its samples begin to fail, go on failing, or
come back. Only the first failure in a row is a warning.
-/

namespace LinkTelemetry

/-- What a cycle reports about a pair. -/
inductive Report where
  | failed (pair : Pair) (cause : SourceError)
  | stillFailing (pair : Pair) (cause : SourceError)
  | recovered (pair : Pair)
  deriving DecidableEq

namespace Report

/-- The pair that a report is about. -/
def pair : Report → Pair
  | failed p _ | stillFailing p _ | recovered p => p

/-- A report as it stands in the log. -/
def line : Report → LogLine
  | failed (e, m) cause => ⟨.warn, s!"{e}/{m.name}: sample failed: {cause.message}"⟩
  | stillFailing (e, m) cause => ⟨.debug, s!"{e}/{m.name}: still failing: {cause.message}"⟩
  | recovered (e, m) => ⟨.info, s!"{e}/{m.name}: sampling recovered"⟩

end Report

end LinkTelemetry
