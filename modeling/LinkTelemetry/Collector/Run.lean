import LinkTelemetry.Collector.Event
import LinkTelemetry.Collector.Timing

/-!
# Running on a schedule

The first cycle starts at once and every later one an interval after the one
before, as long as cycles keep within the interval. A cycle that overruns is
followed by the next one without a pause, and the schedule then goes on from
there. A run ends when it is cancelled; a cycle that has not completed by
then leaves no trace but a line in the log. Time is counted in milliseconds
from the start of the run.
-/

namespace LinkTelemetry

/-- What is late by no more than this counts as on time. -/
def toleranceMs : Nat := 5

/-- When the next cycle is due, after one that was due and one that started. -/
def nextDue (intervalMs due started : Nat) : Nat :=
  if started ≤ due + toleranceMs then due + intervalMs else started + intervalMs

theorem add_le_nextDue (intervalMs : Nat) {due started : Nat} (h : due ≤ started) :
    due + intervalMs ≤ nextDue intervalMs due started := by
  rw [nextDue]
  split
  · exact Nat.le_refl _
  · exact Nat.add_le_add_right h _

/-- A span of time, in seconds from one second on. -/
def writeSpan (ms : Nat) : String :=
  if ms < 1000 then s!"{ms}ms"
  else
    let places := Text.dropEndWhile (· == '0') (Numeral.writePadded 3 (ms % 1000))
    .ofList (Numeral.write (ms / 1000) ++ (if places.isEmpty then [] else '.' :: places) ++ ['s'])

namespace Monitor

/-- A run over sources that answer in a way of their own in every cycle.
`stamp` is the clock that snapshots are stamped with. -/
structure Schedule where
  /-- The replies in the cycle of a number, from zero on. -/
  replies : Nat → Replies
  stamp : Nat → Float
  cancelledAt : Nat

/-- What a run sees of cycle number `k` when it starts at `started`: the
samples that come back before the cancellation. -/
def Schedule.round (s : Schedule) (c : Collector) (k started : Nat) : Round :=
  let replies := s.replies k
  let inTime := (c.arrivals replies).filter fun p =>
    started + (replies p.1 p.2).duration c.timeoutMs < s.cancelledAt
  ⟨s.stamp started, inTime.map fun p => (p, c.outcomes replies p.1 p.2)⟩

/-- What happens to a run from cycle number `k` on, up to its cancellation.
The time is `now` and the next cycle is due at `due`. -/
def Schedule.events (s : Schedule) (c : Collector) (k now due : Nat) : List Event :=
  let started := max now due
  if s.cancelledAt ≤ started then [.cancel]
  else
    let done := started + c.duration (s.replies k)
    (s.round c k started).events ++
      if s.cancelledAt ≤ done then [.cancel]
      else s.events c (k + 1) done (nextDue c.intervalMs due started)
termination_by s.cancelledAt - due
decreasing_by
  have := c.interval_pos
  have := add_le_nextDue c.intervalMs (Nat.le_max_right now due)
  omega

def startedLine (c : Collector) (sourceName : String) : LogLine where
  level := .info
  message :=
    s!"collector started: {c.endpoints.length} endpoint(s) x {c.metrics.length} metric(s) " ++
      s!"every {writeSpan c.intervalMs} via {sourceName}"

/-- A whole run, from its first line in the log to its last. -/
def run (m : Monitor) (sourceName : String) (s : Schedule) : Monitor :=
  let start := m.say [startedLine m.collector sourceName]
  (Run.follow ⟨start, .ticking⟩ (s.events m.collector 0 0 0)).monitor

end Monitor

end LinkTelemetry
