import LinkTelemetry.Collector.Cycle

/-!
# Runs, event by event

A run waits for its ticker, then for the samples of a cycle, and all the time
for its cancellation. What has come back of a cycle in flight belongs to the
run alone. The monitor learns of it when nothing is missing any more, and if
the cancellation is seen before that, it never does.
-/

namespace LinkTelemetry

/-- What happens to a run. -/
inductive Event where
  /-- The ticker fires, and the clock reads `stamp`. -/
  | tick (stamp : Float)
  /-- The sample of a pair comes back. -/
  | reply (pair : Pair) (sample : Sample)
  /-- The cancellation is seen. -/
  | cancel

/-- What a run waits for. -/
inductive Phase where
  | ticking
  /-- A cycle is in flight; `back` is what has come back so far. -/
  | sampling (stamp : Float) (back : List (Pair × Sample))
  | stopped

structure Run where
  monitor : Monitor
  phase : Phase := .ticking

def cancelledLine : LogLine := ⟨.debug, "cancelled mid-cycle, discarding partial results"⟩

def stoppedLine (cycles : Nat) : LogLine := ⟨.info, s!"collector stopped after {cycles} cycle(s)"⟩

namespace Run

/-- Whether a sample of every pair has come back. -/
def isComplete (c : Collector) (back : List (Pair × Sample)) : Bool :=
  c.pairs.all fun p => (back.lookup p).isSome

/-- Goes on waiting for the samples of a cycle, or completes it. -/
def await (m : Monitor) (stamp : Float) (back : List (Pair × Sample)) : Run :=
  if isComplete m.collector back then ⟨m.cycle stamp (.ofList back), .ticking⟩
  else ⟨m, .sampling stamp back⟩

/-- The end of a run, with its last line in the log. -/
def stop (m : Monitor) : Run := ⟨m.say [stoppedLine m.store.cycles], .stopped⟩

def step (r : Run) (event : Event) : Run :=
  match r.phase, event with
  | .ticking, .tick stamp => await r.monitor stamp []
  | .ticking, .cancel => stop r.monitor
  | .sampling stamp back, .reply p sample => await r.monitor stamp (back ++ [(p, sample)])
  | .sampling .., .cancel => stop (r.monitor.say [cancelledLine])
  -- The ticker is not asked during a cycle, and nothing is outstanding before one.
  | _, _ => r

/-- A run after a list of events. -/
def follow (r : Run) (events : List Event) : Run := events.foldl step r

theorem follow_append (r : Run) (past rest : List Event) :
    r.follow (past ++ rest) = (r.follow past).follow rest := List.foldl_append

end Run

/-- A cycle as a run meets it: the clock at its tick, and what comes back in
which order. -/
structure Round where
  stamp : Float
  back : List (Pair × Sample)

def Round.events (r : Round) : List Event :=
  .tick r.stamp :: r.back.map fun (p, sample) => .reply p sample

end LinkTelemetry
