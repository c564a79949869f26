import LinkTelemetry.Collector.Sampling

/-!
# Answers in time

All samples of a cycle are asked for at once, each under a deadline of its
own. An answer that comes on the deadline is in time; one that comes later,
or never, is a timeout, and the cycle goes on without it. So a cycle lasts as
long as its slowest sample, and never longer than the deadline.
-/

namespace LinkTelemetry

/-- An answer and when it comes. -/
structure Reply where
  answer : Sample
  /-- Milliseconds until the answer; `none` if it never comes. -/
  delayMs : Option Nat := some 0

/-- Whether an answer comes after its deadline, or never. -/
def isLate (timeoutMs : Nat) (delayMs : Option Nat) : Bool := delayMs.all (timeoutMs < ·)

@[simp] theorem isLate_none (timeoutMs : Nat) : isLate timeoutMs none = true := rfl

@[simp] theorem isLate_some (timeoutMs delay : Nat) :
    isLate timeoutMs (some delay) = decide (timeoutMs < delay) := rfl

namespace Reply

/-- A question that is never answered. -/
def never : Reply := ⟨.error .timeout, none⟩

/-- What a sample comes to under a deadline. -/
def outcome (timeoutMs : Nat) (r : Reply) : Sample :=
  if isLate timeoutMs r.delayMs then .error .timeout else r.answer

/-- How long a sample takes under a deadline. -/
def duration (timeoutMs : Nat) (r : Reply) : Nat :=
  match r.delayMs with
  | some delay => min delay timeoutMs
  | none => timeoutMs

end Reply

/-- The replies to the questions of a cycle. -/
abbrev Replies := EndpointName → Metric → Reply

namespace Collector

/-- What the samples of a cycle come to. -/
def outcomes (c : Collector) (replies : Replies) : Outcomes :=
  fun e m => (replies e m).outcome c.timeoutMs

/-- How long a cycle takes, in milliseconds. -/
def duration (c : Collector) (replies : Replies) : Nat :=
  (c.pairs.map fun (e, m) => (replies e m).duration c.timeoutMs).foldl max 0

/-- The pairs in the order in which their samples come back. -/
def arrivals (c : Collector) (replies : Replies) : List Pair :=
  c.pairs.mergeSort fun p q =>
    (replies p.1 p.2).duration c.timeoutMs ≤ (replies q.1 q.2).duration c.timeoutMs

end Collector

end LinkTelemetry
