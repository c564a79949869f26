import LinkTelemetry.Collector.Timing

/-!
# Scripted replies

A list of replies for each pair, for rehearsals of the collector. The replies
of a list come one after the other, and the last one from then on.
-/

namespace LinkTelemetry

/-- The replies still to come. -/
abbrev Script := PairMap (List Reply)

namespace Script

/-- The reply to a question that no script foresees. -/
def unscripted : Reply := ⟨.error (.unreachable (.reported "unscripted")), some 0⟩

def lines (script : Script) (e : EndpointName) (m : Metric) : List Reply :=
  (script.get? (e, m)).getD []

/-- Replaces the replies of one pair. -/
def set (script : Script) (e : EndpointName) (m : Metric) (replies : List Reply) : Script :=
  script.insert (e, m) replies

/-- The reply of one pair after `k` others. -/
def reply (script : Script) (k : Nat) (e : EndpointName) (m : Metric) : Reply :=
  let lines := script.lines e m
  ((lines[k]?).or lines.getLast?).getD unscripted

/-- The replies left after one question. -/
def rest : List Reply → List Reply
  | _ :: next :: more => next :: more
  | replies => replies

/-- The script after one cycle of questions. -/
def advance (script : Script) (pairs : List Pair) : Script :=
  pairs.foldl (fun script (e, m) => script.set e m (rest (script.lines e m))) script

end Script

end LinkTelemetry
