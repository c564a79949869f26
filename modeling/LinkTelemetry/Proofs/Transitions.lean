import LinkTelemetry.Proofs.Reports

/-!
# Reports follow transitions

Whether a failed sample is a warning depends on the cycle before, and of all
the cycles before a collector only keeps the list of failing pairs. That this
is enough is shown here: when a cycle begins, a pair is in the list exactly
if it failed in the cycle before, and so the reports of a cycle are those of
the transitions of its pairs, failures first, and each line names its pair and
says which transition it was.

Over a run the lines of a pair that stand out, its warnings and recoveries,
therefore take turns. The step is `marks_cons`: a cycle adds such a line if
the pair changes sides, and then it is the line of the side it was on.
-/

namespace LinkTelemetry

/-- Whether a pair failed in the last of some cycles. -/
def failedLast (past : List Cycle) (p : Pair) : Bool :=
  past.getLast?.any fun cycle => Collector.failed cycle.outcomes p

/-- Two values take turns in a list, and `first` begins. -/
def Alternating {α : Type} (first second : α) : List α → Prop
  | [] => True
  | x :: rest => x = first ∧ Alternating second first rest

namespace Collector

variable {c : Collector} (outcomes : Outcomes)

theorem mem_failing_after (stamp : Float) (hpolled : ∀ p ∈ c.failing, p ∈ c.pairs) (p : Pair) :
    p ∈ (c.after stamp outcomes).failing ↔ p ∈ c.pairs ∧ failed outcomes p := by
  by_cases hp : p ∈ c.pairs
  · rw [← isFailing_iff, c.isFailing_after outcomes stamp hp, and_iff_right hp]
  · show p ∈ c.failingAfter outcomes ↔ _
    rw [mem_failingAfter, isFailing_iff]
    constructor
    · rintro (⟨hfailing, -⟩ | hfailed)
      · exact absurd (hpolled p hfailing) hp
      · exact hfailed
    · exact .inr

theorem map_pair_failures (c : Collector) :
    (c.pairs.filterMap (c.failure? outcomes)).map Report.pair =
      c.pairs.filter (failed outcomes) := by
  have hguard : (fun p => (c.failure? outcomes p).map Report.pair) =
      Option.guard (failed outcomes) := by
    funext p
    cases h : outcomes p.1 p.2 with
    | ok v => simp [failure?, failed, Option.guard, h]
    | error cause =>
        cases hp : c.isFailing p <;> simp [failure?, failed, Option.guard, Report.pair, h, hp]
  rw [List.map_filterMap, hguard, List.filterMap_eq_filter]

end Collector

namespace Monitor

variable {m : Monitor}

/-- Only polled pairs are ever failing. -/
theorem mem_pairs_of_failing (h : ∀ p ∈ m.collector.failing, p ∈ m.collector.pairs)
    (cycles : List Cycle) :
    ∀ p ∈ (m.after cycles).collector.failing, p ∈ (m.after cycles).collector.pairs := by
  induction cycles generalizing m with
  | nil => exact h
  | cons cycle rest ih =>
      refine ih fun p hp => ?_
      exact ((Collector.mem_failing_after cycle.outcomes cycle.stamp h p).mp hp).1

theorem mem_failing_after (hnew : m.collector.failing = []) (past : List Cycle) (now : Cycle)
    (p : Pair) :
    p ∈ (m.after (past ++ [now])).collector.failing ↔
      p ∈ m.collector.pairs ∧ Collector.failed now.outcomes p := by
  have hpolled := mem_pairs_of_failing (m := m) (by simp [hnew]) past
  rw [after_append, ← m.pairs_after past]
  exact Collector.mem_failing_after now.outcomes now.stamp hpolled p

/-- What a collector remembers of a pair is its last cycle. -/
theorem isFailing_after (hnew : m.collector.failing = []) (past : List Cycle) {p : Pair}
    (hp : p ∈ m.collector.pairs) :
    (m.after past).collector.isFailing p = failedLast past p := by
  rcases List.eq_nil_or_concat past with rfl | ⟨past, now, rfl⟩
  · show m.collector.isFailing p = false
    rw [Collector.isFailing, hnew]
    rfl
  · rw [List.concat_eq_append, Bool.eq_iff_iff, Collector.isFailing_iff, mem_failing_after hnew,
      and_iff_right hp, failedLast, List.getLast?_concat, Option.any_some]

/-- The reports of a cycle about a pair, by this cycle and the one before. -/
theorem filter_reports_after (hnew : m.collector.failing = []) (past : List Cycle) (now : Cycle)
    {p : Pair} (hp : p ∈ m.collector.pairs) :
    ((m.after past).collector.reports now.outcomes).filter (·.pair = p) =
      (Report.about? (failedLast past p) p (now.outcomes p.1 p.2)).toList := by
  rw [← isFailing_after hnew past hp]
  rw [← m.pairs_after past] at hp
  exact (m.after past).collector.filter_reports now.outcomes hp

theorem recovered_after (hnew : m.collector.failing = []) (past : List Cycle) (now : Cycle) :
    (m.after past).collector.recovered now.outcomes =
      m.collector.pairs.filter fun p =>
        !Collector.failed now.outcomes p && failedLast past p := by
  rw [Collector.recovered, pairs_after]
  exact List.filter_congr fun p hp => by rw [isFailing_after hnew past hp]

/-- The levels of the lines about a pair that stand out in the log of a run. -/
def marks (m : Monitor) (p : Pair) (cycles : List Cycle) : List LogLevel :=
  (((m.reportsOver cycles).filter (·.pair = p)).map (·.line.level)).filter (· ≠ .debug)

/-- The line that stands out when a pair changes sides. -/
def nextMark (failing : Bool) : LogLevel := if failing then .info else .warn

theorem marks_cons (cycle : Cycle) (rest : List Cycle) {p : Pair} (hp : p ∈ m.collector.pairs) :
    m.marks p (cycle :: rest) =
      (if Collector.failed cycle.outcomes p = m.collector.isFailing p then []
        else [nextMark (m.collector.isFailing p)]) ++
      (m.cycle cycle.stamp cycle.outcomes).marks p rest := by
  have hfirst : (((m.collector.reports cycle.outcomes).filter (·.pair = p)).map
      (·.line.level)).filter (· ≠ .debug) =
        if Collector.failed cycle.outcomes p = m.collector.isFailing p then []
        else [nextMark (m.collector.isFailing p)] := by
    rw [m.collector.filter_reports cycle.outcomes hp]
    cases h : cycle.outcomes p.1 p.2 with
    | ok v =>
        cases m.collector.isFailing p <;>
          simp [Report.about?, Collector.failed, Report.line, nextMark, h]
    | error cause =>
        cases m.collector.isFailing p <;>
          simp [Report.about?, Collector.failed, Report.line, nextMark, h]
  rw [marks, reportsOver, List.filter_append, List.map_append, List.filter_append, hfirst]
  rfl

theorem alternating_marks (m : Monitor) (cycles : List Cycle) {p : Pair}
    (hp : p ∈ m.collector.pairs) :
    Alternating (nextMark (m.collector.isFailing p)) (nextMark !m.collector.isFailing p)
      (m.marks p cycles) := by
  induction cycles generalizing m with
  | nil => trivial
  | cons cycle rest ih =>
      have hrest := ih (m.cycle cycle.stamp cycle.outcomes) hp
      have hside : (m.cycle cycle.stamp cycle.outcomes).collector.isFailing p =
          Collector.failed cycle.outcomes p :=
        m.collector.isFailing_after cycle.outcomes cycle.stamp hp
      rw [hside] at hrest
      rw [marks_cons cycle rest hp]
      split
      · next hstay =>
          rw [← hstay]
          exact hrest
      · next hchange =>
          rw [Bool.eq_not_of_ne hchange, Bool.not_not] at hrest
          exact ⟨rfl, hrest⟩

end Monitor

/-- A cycle logs the transitions of its pairs and the failures that go on, each
with a line of its own, and the warnings and recoveries of a pair take turns
over every run. -/
theorem reports_follow_transitions {endpoints : List EndpointName} {metrics : List Metric}
    {interval timeout : Option Nat} {c : Collector}
    (hc : Collector.timed endpoints metrics interval timeout = .ok c)
    (store : Store) (log : List LogLine) :
    let start : Monitor := ⟨c, store, log⟩
    (∀ past now,
      let before := start.after past
      let after := start.after (past ++ [now])
      let reports := before.collector.reports now.outcomes
      after.log = before.log ++ reports.map Report.line ∧
      (∀ p ∈ c.pairs, reports.filter (·.pair = p) =
        match now.outcomes p.1 p.2, failedLast past p with
        | .error cause, false => [.failed p cause]
        | .error cause, true => [.stillFailing p cause]
        | .ok _, true => [.recovered p]
        | .ok _, false => []) ∧
      (∀ e m, (e, m) ∈ c.pairs → (reports.filter (·.pair = (e, m))).map Report.line =
        match now.outcomes e m, failedLast past (e, m) with
        | .error cause, false => [⟨.warn, s!"{e}/{m.name}: sample failed: {cause.message}"⟩]
        | .error cause, true => [⟨.debug, s!"{e}/{m.name}: still failing: {cause.message}"⟩]
        | .ok _, true => [⟨.info, s!"{e}/{m.name}: sampling recovered"⟩]
        | .ok _, false => []) ∧
      (∀ p, p ∈ after.collector.failing ↔ p ∈ c.pairs ∧ Collector.failed now.outcomes p) ∧
      ∃ failures recoveries, reports = failures ++ recoveries.map Report.recovered ∧
        failures.map Report.pair = c.pairs.filter (Collector.failed now.outcomes) ∧
        recoveries = c.pairs.filter fun p =>
          !Collector.failed now.outcomes p && failedLast past p) ∧
    (∀ cycles, (start.after cycles).log = log ++ (start.reportsOver cycles).map Report.line ∧
      ∀ p ∈ c.pairs, Alternating .warn .info (start.marks p cycles)) := by
  intro start
  have hnew : start.collector.failing = [] := (Collector.isNew_of_timed hc).failing_eq
  constructor
  · intro past now before after reports
    refine ⟨?_, ?_, ?_, Monitor.mem_failing_after hnew past now, ?_⟩
    · show (start.after (past ++ [now])).log = _
      rw [Monitor.after_append]
      rfl
    · intro p hp
      refine (Monitor.filter_reports_after hnew past now hp).trans ?_
      cases now.outcomes p.1 p.2 with
      | ok v => cases failedLast past p <;> rfl
      | error cause => cases failedLast past p <;> rfl
    · intro e m hp
      refine (congrArg (List.map Report.line)
        (Monitor.filter_reports_after hnew past now hp)).trans ?_
      dsimp only
      cases now.outcomes e m with
      | ok v => cases failedLast past (e, m) <;> rfl
      | error cause => cases failedLast past (e, m) <;> rfl
    · refine ⟨_, before.collector.recovered now.outcomes, rfl, ?_,
        Monitor.recovered_after hnew past now⟩
      rw [Collector.map_pair_failures, start.pairs_after past]
  · intro cycles
    refine ⟨start.log_after cycles, fun p hp => ?_⟩
    have hfresh : start.collector.isFailing p = false := by
      rw [Collector.isFailing, hnew]
      rfl
    have halternating := start.alternating_marks cycles hp
    rw [hfresh] at halternating
    exact halternating

/-- A pair that fails twice and then recovers, while another one fails once
in between. -/
theorem reports_follow_transitions_of_recovery :
    ∃ c, Collector.timed ["server"] [.bytesIn, .latencyMs] none none = .ok c ∧
      ("server", .bytesIn) ∈ c.pairs ∧ ∀ store log,
        let start : Monitor := ⟨c, store, log⟩
        let past : List Cycle := [⟨10, fun _ m => if m = .bytesIn then .error .timeout
            else .ok (.gauge 5)⟩, ⟨11, fun _ _ => .error .timeout⟩]
        let now : Cycle := ⟨12, fun _ _ => .ok (.counter 7)⟩
        (((start.after past).collector.reports now.outcomes).filter
            (·.pair = ("server", .bytesIn))).map Report.line =
              [⟨.info, "server/bytes_in: sampling recovered"⟩] ∧
          ("server", .bytesIn) ∉ (start.after (past ++ [now])).collector.failing ∧
          Alternating .warn .info (start.marks ("server", .bytesIn) (past ++ [now])) := by
  refine ⟨_, rfl, by decide, fun store log => ?_⟩
  obtain ⟨hcycle, hrun⟩ :=
    @reports_follow_transitions ["server"] [.bytesIn, .latencyMs] none none _ rfl store log
  intro start past now
  obtain ⟨-, -, hlines, hfailing, -⟩ := hcycle past now
  refine ⟨hlines _ _ (by decide), fun h => ?_, (hrun _).2 _ (by decide)⟩
  exact Bool.false_ne_true ((hfailing _).mp h).2

end LinkTelemetry
