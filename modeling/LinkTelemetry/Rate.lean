/-!
# Rates of counters

A rate is the difference of two successive totals over the time between
them. A total that went down means a restarted agent: that cycle has rate
zero, and the new total is the one the next is compared with. What was lost
over the restart is not made up.
-/

namespace LinkTelemetry

/-- The rate per second between two totals. It is zero without an earlier
total, without a positive finite time between them, and when the total went
down. -/
def rate (current : Float) (previous : Option Float) (elapsed : Float) : Float :=
  match previous with
  | none => 0
  | some previous =>
    if !(elapsed.isFinite && 0 < elapsed) then 0
    else if current < previous then 0
    else (current - previous) / elapsed

theorem rate_of_elapsed {current previous elapsed : Float} (hfinite : elapsed.isFinite)
    (hpos : 0 < elapsed) : rate current (some previous) elapsed =
      if current < previous then 0 else (current - previous) / elapsed := by
  have htime : (!(elapsed.isFinite && decide (0 < elapsed))) = false := by
    rw [hfinite, decide_eq_true hpos]
    rfl
  rw [rate, htime, if_neg Bool.false_ne_true]

/-- The total that the next one is compared with. -/
structure Baseline where
  value : Float
  /-- Seconds of the Unix epoch. -/
  stamp : Float

/-- The rate from a baseline to a new total. The baseline always moves to the
new total, also after a restart. -/
def Baseline.advance (baseline : Baseline) (value stamp : Float) : Float × Baseline :=
  (rate value (some baseline.value) (stamp - baseline.stamp), ⟨value, stamp⟩)

end LinkTelemetry
