import LinkTelemetry.Collector.Timing
import LinkTelemetry.Proofs.Reports
import LinkTelemetry.Proofs.Rounds

/-!
# Pairs do not disturb each other

Two runs over the same stamps may meet different sources. If the samples of
one pair come to the same in both, cycle by cycle, then nothing that the runs
show of this pair tells them apart: not its cell in the current snapshot, not
its baseline, not what is reported about it. The other pairs may answer
anything, late or never, and in any order.

What is carried through the two runs is `ShowSame`. It has to name one thing
more than a reader can see, whether the pair is failing, because the next
report depends on it.
-/

namespace LinkTelemetry

/-- A cycle of some pairs as their sources answer it. -/
structure Poll (pairs : List Pair) where
  stamp : Float
  replies : Replies
  /-- The pairs as their samples come back, each of them once. -/
  order : List Pair
  order_perm : order.Perm pairs

namespace Poll

variable {pairs : List Pair}

/-- What a collector makes of a poll once all the samples are in. -/
def cycle (c : Collector) (x : Poll pairs) : Cycle := ⟨x.stamp, c.outcomes x.replies⟩

/-- A poll as a run meets it. -/
def round (c : Collector) (x : Poll pairs) : Round :=
  .inOrder x.stamp x.order (c.outcomes x.replies)

end Poll

namespace Monitor

/-- A monitor after a run over some polls, event by event. -/
def polled (m : Monitor) (xs : List (Poll m.collector.pairs)) : Monitor :=
  (Run.follow ⟨m, .ticking⟩ (xs.flatMap fun x => (x.round m.collector).events)).monitor

/-- What a run over some polls reports. -/
def reportsOn (m : Monitor) (xs : List (Poll m.collector.pairs)) : List Report :=
  m.reportsOver (xs.map (·.cycle m.collector))

/-- The order in which the samples come back is lost in what a run leaves. -/
theorem polled_eq (m : Monitor) (xs : List (Poll m.collector.pairs)) :
    m.polled xs = m.after (xs.map (·.cycle m.collector)) := by
  have hrounds : xs.flatMap (fun x => (x.round m.collector).events) =
      (xs.map (·.round m.collector)).flatMap Round.events := List.flatMap_map .. |>.symm
  rw [polled, hrounds, Run.follow_rounds]
  · refine m.after_congr ?_
    rw [List.map_map, List.forall₂_map_left_iff, List.forall₂_map_right_iff, List.forall₂_same]
    intro x _
    exact ⟨rfl, Round.agree_inOrder _ _ _ fun p hp => x.order_perm.mem_iff.mpr hp⟩
  · intro r hr
    obtain ⟨x, -, rfl⟩ := List.mem_map.mp hr
    rw [Round.Complete, Poll.round, Round.order_inOrder]
    exact x.order_perm

/-- Monitors that show the same of a pair, and will report it alike. -/
structure ShowSame (p : Pair) (m m' : Monitor) : Prop where
  pairs_eq : m.collector.pairs = m'.collector.pairs
  cell_eq : m.cell? p = m'.cell? p
  baseline_eq : m.collector.baselines.get? p = m'.collector.baselines.get? p
  failing_eq : m.collector.isFailing p = m'.collector.isFailing p

namespace ShowSame

variable {p : Pair} {m m' : Monitor} {x y : Cycle}

theorem refl (p : Pair) (m : Monitor) : ShowSame p m m := ⟨rfl, rfl, rfl, rfl⟩

theorem cycle (h : ShowSame p m m') (hp : p ∈ m.collector.pairs) (hxy : Cycle.Alike [p] x y) :
    ShowSame p (m.cycle x.stamp x.outcomes) (m'.cycle y.stamp y.outcomes) := by
  have hp' : p ∈ m'.collector.pairs := h.pairs_eq ▸ hp
  have hown := hxy.outcomes_eq p (List.mem_singleton_self p)
  refine ⟨h.pairs_eq, ?_, ?_, ?_⟩
  · rw [m.cell_cycle _ _ hp, m'.cell_cycle _ _ hp', hxy.stamp_eq, hown, h.baseline_eq]
  · have hleft : (m.cycle x.stamp x.outcomes).collector.baselines.get? p = _ :=
      (m.collector.assemble_of_mem _ _ hp).2
    have hright : (m'.cycle y.stamp y.outcomes).collector.baselines.get? p = _ :=
      (m'.collector.assemble_of_mem _ _ hp').2
    rw [hleft, hright, hxy.stamp_eq, hown, h.baseline_eq]
  · have hleft : (m.cycle x.stamp x.outcomes).collector.isFailing p = _ :=
      m.collector.isFailing_after _ _ hp
    have hright : (m'.cycle y.stamp y.outcomes).collector.isFailing p = _ :=
      m'.collector.isFailing_after _ _ hp'
    rw [hleft, hright, Collector.failed_congr hown]

theorem reports (h : ShowSame p m m') (hp : p ∈ m.collector.pairs) (hxy : Cycle.Alike [p] x y) :
    (m.collector.reports x.outcomes).filter (·.pair = p) =
      (m'.collector.reports y.outcomes).filter (·.pair = p) := by
  have hp' : p ∈ m'.collector.pairs := h.pairs_eq ▸ hp
  rw [m.collector.filter_reports _ hp, m'.collector.filter_reports _ hp', h.failing_eq,
    hxy.outcomes_eq p (List.mem_singleton_self p)]

/-- Runs that are alike on a pair keep showing the same of it, and report the
same about it. -/
theorem after (h : ShowSame p m m') (hp : p ∈ m.collector.pairs) {xs ys : List Cycle}
    (hxy : List.Forall₂ (Cycle.Alike [p]) xs ys) :
    ShowSame p (m.after xs) (m'.after ys) ∧
      (m.reportsOver xs).filter (·.pair = p) = (m'.reportsOver ys).filter (·.pair = p) := by
  induction hxy generalizing m m' with
  | nil => exact ⟨h, rfl⟩
  | cons hhead _ ih =>
      obtain ⟨hafter, hreports⟩ := ih (h.cycle hp hhead) hp
      refine ⟨hafter, ?_⟩
      rw [reportsOver, reportsOver, List.filter_append, List.filter_append, h.reports hp hhead,
        hreports]

end ShowSame

end Monitor

/-- Two runs in which a pair fares the same show the same of it after every
cycle, and say the same about it in the log. Runs in which all pairs fare the
same do not differ at all, whatever came back first. -/
theorem pairs_isolated (m : Monitor) :
    (∀ p ∈ m.collector.pairs, ∀ xs ys : List (Poll m.collector.pairs),
      List.Forall₂ (fun x y => Cycle.Alike [p] (x.cycle m.collector) (y.cycle m.collector)) xs ys →
      ∀ k,
        let left := m.polled (xs.take k)
        let right := m.polled (ys.take k)
        left.cell? p = right.cell? p ∧
          left.collector.baseline? p.1 p.2 = right.collector.baseline? p.1 p.2 ∧
          (m.reportsOn (xs.take k)).filter (·.pair = p) =
            (m.reportsOn (ys.take k)).filter (·.pair = p)) ∧
    (∀ xs : List (Poll m.collector.pairs),
      (m.polled xs).log = m.log ++ (m.reportsOn xs).map Report.line) ∧
    (∀ xs ys : List (Poll m.collector.pairs),
      List.Forall₂ (fun x y => Cycle.Alike m.collector.pairs (x.cycle m.collector)
        (y.cycle m.collector)) xs ys →
      m.polled xs = m.polled ys) := by
  refine ⟨?_, ?_, ?_⟩
  · intro p hp xs ys hxy k
    have hcycles : List.Forall₂ (Cycle.Alike [p]) ((xs.take k).map (·.cycle m.collector))
        ((ys.take k).map (·.cycle m.collector)) := by
      rw [List.forall₂_map_left_iff, List.forall₂_map_right_iff]
      exact List.forall₂_take k hxy
    obtain ⟨hsame, hreports⟩ := (Monitor.ShowSame.refl p m).after hp hcycles
    simp only [m.polled_eq]
    exact ⟨hsame.cell_eq, hsame.baseline_eq, hreports⟩
  · intro xs
    rw [m.polled_eq, m.log_after]
    rfl
  · intro xs ys hxy
    rw [m.polled_eq, m.polled_eq]
    refine m.after_congr ?_
    rwa [List.forall₂_map_left_iff, List.forall₂_map_right_iff]

/-- An endpoint that answers at once in one run, and hangs in the other, which
also takes the samples in the reverse order. -/
theorem pairs_isolated_from_hanging :
    ∃ c, Collector.timed ["server", "backup"] [.bytesIn] none none = .ok c ∧
      ("server", .bytesIn) ∈ c.pairs ∧
      ∀ store log,
        let m : Monitor := ⟨c, store, log⟩
        let prompt : Replies := fun _ _ => ⟨.ok (.counter 1000), some 0⟩
        let hanging : Replies := fun e _ =>
          if e = "backup" then .never else ⟨.ok (.counter 1000), some 20⟩
        let straight (replies : Replies) (stamp : Float) : Poll c.pairs :=
          ⟨stamp, replies, c.pairs, .refl _⟩
        let reversed (replies : Replies) (stamp : Float) : Poll c.pairs :=
          ⟨stamp, replies, c.pairs.reverse, List.reverse_perm _⟩
        let left := m.polled [straight prompt 10, straight prompt 11]
        let right := m.polled [reversed hanging 10, reversed hanging 11]
        left.cell? ("server", .bytesIn) = right.cell? ("server", .bytesIn) ∧
          left.collector.baseline? "server" .bytesIn =
            right.collector.baseline? "server" .bytesIn ∧
          m.polled [reversed prompt 10, reversed prompt 11] = left := by
  obtain ⟨c, hc, hp, htimeout⟩ : ∃ c,
      Collector.timed ["server", "backup"] [.bytesIn] none none = .ok c ∧
        ("server", .bytesIn) ∈ c.pairs ∧ c.timeoutMs = 1000 :=
    ⟨_, rfl, by decide, rfl⟩
  refine ⟨c, hc, hp, fun store log => ?_⟩
  intro m prompt hanging straight reversed left right
  obtain ⟨hpair, -, horder⟩ := pairs_isolated m
  have halike : ∀ stamp, Cycle.Alike [("server", .bytesIn)]
      ((straight prompt stamp).cycle c) ((reversed hanging stamp).cycle c) := by
    intro stamp
    refine ⟨rfl, fun p hp => ?_⟩
    rw [List.mem_singleton.mp hp]
    show (prompt "server" .bytesIn).outcome c.timeoutMs =
      (hanging "server" .bytesIn).outcome c.timeoutMs
    rw [htimeout]
    rfl
  obtain ⟨hcell, hbase, -⟩ := hpair _ hp _ _
    (.cons (halike 10) (.cons (halike 11) .nil)) 2
  refine ⟨hcell, hbase, ?_⟩
  exact horder _ _ (.cons ⟨rfl, fun _ _ => rfl⟩ (.cons ⟨rfl, fun _ _ => rfl⟩ .nil))

end LinkTelemetry
