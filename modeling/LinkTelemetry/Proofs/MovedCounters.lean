import LinkTelemetry.Proofs.Baseline
import LinkTelemetry.Proofs.FloatWords

/-!
# Counters that moved

Totals are counted in words of 64 bits and kept as floats, which have 53. So a
counter can move without its total doing so, and then it has rate zero like a
counter that stands still. This file says when that happens: if and only if
both totals are the same float. A total below `2 ^ 53` is no other's float, and
from there on an increase by `2 ^ 12` is enough.

Nothing else makes a counter idle that is not. The larger total is never the
smaller float, the times of two cycles that are not the same have a difference
that is not zero, and a difference of totals is one or more, which no time that
is finite divides down to zero.
-/

namespace LinkTelemetry

/-- What the rate of a counter that moved is, over any time that is positive
and finite. -/
theorem rate_of_moved {c₁ c₂ : UInt64} {elapsed : Float} (hc : c₁ < c₂)
    (hfinite : elapsed.isFinite) (hpos : 0 < elapsed) :
    (c₁.toFloat < c₂.toFloat ∧ 0 < rate c₂.toFloat (some c₁.toFloat) elapsed) ∨
      ((c₁.toFloat == c₂.toFloat) ∧ rate c₂.toFloat (some c₁.toFloat) elapsed = 0) := by
  rw [rate_of_elapsed hfinite hpos, if_neg (Binary64.not_toFloat_lt hc)]
  rcases Binary64.toFloat_lt_or_beq hc with hlt | hsame
  · exact .inl ⟨hlt, Binary64.zero_lt_sub_div hlt hfinite hpos⟩
  · refine .inr ⟨hsame, ?_⟩
    rw [Binary64.sub_toFloat_of_beq hsame, Binary64.zero_div_of_pos hfinite hpos]

/-- Failed samples do not come between two good ones. -/
theorem lastGood_of_failures (past : List Cycle) {first : Cycle} {failures : List Cycle} {p : Pair}
    {v : Measurement} (hfirst : first.outcomes p.1 p.2 = .ok v)
    (hfailures : ∀ cycle ∈ failures, ∃ cause, cycle.outcomes p.1 p.2 = .error cause) :
    lastGood (past ++ first :: failures) p = some ⟨v.toFloat, first.stamp⟩ := by
  have hnone : failures.filterMap (fun cycle => (cycle.outcomes p.1 p.2).good? cycle.stamp) =
      [] := by
    refine List.filterMap_eq_nil_iff.mpr fun cycle hcycle => ?_
    obtain ⟨cause, hcause⟩ := hfailures cycle hcycle
    rw [hcause]
    rfl
  rw [lastGood, List.filterMap_append, List.filterMap_cons, hnone, hfirst]
  exact List.getLast?_concat ..

theorem Monitor.rate?_of_consecutive (start : Monitor) {e : EndpointName} {m : Metric}
    (hp : (e, m) ∈ start.collector.pairs) (hm : m.isCounter) (past : List Cycle)
    {first second : Cycle} {failures : List Cycle} {v₁ v₂ : Measurement}
    (hfirst : first.outcomes e m = .ok v₁)
    (hfailures : ∀ cycle ∈ failures, ∃ cause, cycle.outcomes e m = .error cause)
    (hsecond : second.outcomes e m = .ok v₂) :
    ((start.after (past ++ first :: failures ++ [second])).store.current? e).bind (·.rate? m) =
      some (rate v₂.toFloat (some v₁.toFloat) (second.stamp - first.stamp)) := by
  have hbase : (start.after (past ++ first :: failures)).collector.baseline? e m =
      some ⟨v₁.toFloat, first.stamp⟩ := by
    rw [start.baseline?_after, if_pos ⟨hp, hm⟩,
      @lastGood_of_failures past first failures (e, m) v₁ hfirst hfailures, Option.some_or]
  have hp' : (e, m) ∈ (start.after (past ++ first :: failures)).collector.pairs := by
    rw [start.pairs_after]
    exact hp
  rw [Monitor.after_append]
  refine ((start.after (past ++ first :: failures)).rate?_cycle second hp' hm).trans ?_
  rw [hbase, hsecond]

/-- Between two good samples of a counter that moved, with a time between
them that is finite, the rate is positive unless both totals are the same
float, and then it is zero. -/
theorem moved_counter_shows (start : Monitor) {e : EndpointName} {m : Metric}
    (hp : (e, m) ∈ start.collector.pairs) (hm : m.isCounter) (past : List Cycle)
    {first second : Cycle} {failures : List Cycle} {c₁ c₂ : UInt64}
    (hfirst : first.outcomes e m = .ok (.counter c₁))
    (hfailures : ∀ cycle ∈ failures, ∃ cause, cycle.outcomes e m = .error cause)
    (hsecond : second.outcomes e m = .ok (.counter c₂)) (hc : c₁ < c₂)
    (hstamp : first.stamp < second.stamp) (hfinite : (second.stamp - first.stamp).isFinite) :
    ∃ r, ((start.after (past ++ first :: failures ++ [second])).store.current? e).bind
        (·.rate? m) = some r ∧
      (0 < r ↔ ¬ (c₁.toFloat == c₂.toFloat)) ∧
      ((c₁.toFloat == c₂.toFloat) → r = 0) ∧
      (c₁.toNat < 2 ^ 53 ∨ c₁.toNat + 2 ^ 12 ≤ c₂.toNat → 0 < r) := by
  have hrate := start.rate?_of_consecutive hp hm past hfirst hfailures hsecond
  refine ⟨_, hrate, ?_⟩
  have hpos := Binary64.zero_lt_sub hstamp
  obtain ⟨hlt, hshows⟩ | ⟨hsame, hzero⟩ := rate_of_moved hc hfinite hpos
  · have hne := Binary64.not_beq_of_lt hlt
    exact ⟨iff_of_true hshows hne, fun hsame => absurd hsame hne, fun _ => hshows⟩
  · have hidle : ¬ 0 < rate c₂.toFloat (some c₁.toFloat) (second.stamp - first.stamp) := by
      rw [hzero]
      decide
    refine ⟨iff_of_false hidle (not_not_intro hsame), fun _ => hzero, fun hfar => ?_⟩
    exact absurd hsame (Binary64.not_beq_of_lt (Binary64.toFloat_lt hc hfar))

/-- A counter that grows by one, with a failed sample in between. -/
theorem moved_counter_shows_past_failure :
    ∃ start, Monitor.new 10 (Collector.timed ["server"] [.bytesIn] none none) = .ok start ∧
      let first : Cycle := ⟨100, fun _ _ => .ok (.counter 1000)⟩
      let failed : Cycle := ⟨101, fun _ _ => .error .timeout⟩
      let second : Cycle := ⟨102, fun _ _ => .ok (.counter 1001)⟩
      ("server", .bytesIn) ∈ start.collector.pairs ∧ Metric.isCounter .bytesIn ∧
        (1000 : UInt64) < 1001 ∧ first.stamp < second.stamp ∧
        (second.stamp - first.stamp).isFinite ∧
        ∃ r, ((start.after [first, failed, second]).store.current? "server").bind
          (·.rate? .bytesIn) = some r ∧ 0 < r := by
  obtain ⟨start, hstart, hp⟩ : ∃ start,
      Monitor.new 10 (Collector.timed ["server"] [.bytesIn] none none) = .ok start ∧
        ("server", .bytesIn) ∈ start.collector.pairs := ⟨_, rfl, by decide⟩
  refine ⟨start, hstart, hp, by decide, by decide, by decide, by decide, ?_⟩
  obtain ⟨r, hr, -, -, hshows⟩ := @moved_counter_shows start "server" .bytesIn hp (by decide) []
    ⟨100, fun _ _ => .ok (.counter 1000)⟩ ⟨102, fun _ _ => .ok (.counter 1001)⟩
    [⟨101, fun _ _ => .error .timeout⟩] 1000 1001 rfl
    (fun cycle hcycle => ⟨.timeout, by rw [List.mem_singleton.mp hcycle]⟩) rfl (by decide)
    (by decide) (by decide)
  exact ⟨r, hr, hshows (.inl (by decide))⟩

/-- A counter that grows by one within a second, from a total of 54 bits. -/
theorem moved_counter_idle_at_54_bits :
    ∃ start, Monitor.new 10 (Collector.timed ["server"] [.bytesIn] none none) = .ok start ∧
      let first : Cycle := ⟨100, fun _ _ => .ok (.counter 9007199254740992)⟩
      let second : Cycle := ⟨101, fun _ _ => .ok (.counter 9007199254740993)⟩
      ("server", .bytesIn) ∈ start.collector.pairs ∧ Metric.isCounter .bytesIn ∧
        (9007199254740992 : UInt64) < 9007199254740993 ∧ first.stamp < second.stamp ∧
        (second.stamp - first.stamp).isFinite ∧
        (((start.after [first, second]).store.current? "server").bind (·.rate? .bytesIn)) =
          some 0 ∧ ¬ (0 : Float) < 0 := by
  refine ⟨_, rfl, by decide, by decide, by decide, by decide, by decide, ?_⟩
  decide +kernel

end LinkTelemetry
