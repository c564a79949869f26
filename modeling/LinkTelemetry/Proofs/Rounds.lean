import LinkTelemetry.Collector.Event
import LinkTelemetry.Proofs.Assembly
import Mathlib.Data.List.Forall2

/-!
# A cycle and its events

A run keeps what has come back of a cycle in flight to itself, and while one
sample is missing that is the whole effect of an event: the monitor is the
one from before the tick (`follow_of_open`). When the last sample is in, the
monitor makes one cycle of all of them (`follow_of_complete`).

Of the outcomes a cycle only sees those of the polled pairs, each looked up
under its own pair. So the order in which the samples came does not matter,
and any outcomes that agree on the polled pairs make the same cycle.
-/

namespace LinkTelemetry

/-! ## What a cycle sees of its outcomes -/

/-- Cycles with the same stamp in which the samples of some pairs came to the
same. -/
structure Cycle.Alike (pairs : List Pair) (x y : Cycle) : Prop where
  stamp_eq : x.stamp = y.stamp
  outcomes_eq : ∀ p ∈ pairs, x.outcomes p.1 p.2 = y.outcomes p.1 p.2

namespace Collector

/-- Outcomes that agree on all pairs that are polled. -/
def Agree (c : Collector) (o o' : Outcomes) : Prop := ∀ p ∈ c.pairs, o p.1 p.2 = o' p.1 p.2

variable {c : Collector} {o o' : Outcomes}

theorem failed_congr {p : Pair} (h : o p.1 p.2 = o' p.1 p.2) : failed o p = failed o' p := by
  rw [failed, failed, h]

theorem observations_congr (stamp : Float) (h : c.Agree o o') :
    c.observations stamp o = c.observations stamp o' := by
  rw [observations, observations]
  refine List.map_congr_left fun p hp => ?_
  rw [h p hp]

theorem recovered_congr (h : c.Agree o o') : c.recovered o = c.recovered o' := by
  rw [recovered, recovered]
  refine List.filter_congr fun p hp => ?_
  rw [failed_congr (h p hp)]

theorem reports_congr (h : c.Agree o o') : c.reports o = c.reports o' := by
  have hfailures : c.pairs.filterMap (c.failure? o) = c.pairs.filterMap (c.failure? o') := by
    refine List.filterMap_congr fun p hp => ?_
    rw [failure?, failure?, h p hp]
  rw [reports, reports, hfailures, recovered_congr h]

theorem failingAfter_congr (h : c.Agree o o') : c.failingAfter o = c.failingAfter o' := by
  rw [failingAfter, failingAfter, recovered_congr h]
  congr 1
  refine List.filter_congr fun p hp => ?_
  rw [failed_congr (h p hp)]

end Collector

namespace Monitor

theorem cycle_congr (m : Monitor) (stamp : Float) {o o' : Outcomes} (h : m.collector.Agree o o') :
    m.cycle stamp o = m.cycle stamp o' := by
  have hassemble : m.collector.assemble stamp o = m.collector.assemble stamp o' := by
    rw [Collector.assemble, Collector.assemble, Collector.observations_congr stamp h]
  simp only [cycle, Collector.after, Collector.snapshots, hassemble,
    Collector.reports_congr h, Collector.failingAfter_congr h]

theorem after_congr (m : Monitor) {xs ys : List Cycle}
    (h : List.Forall₂ (Cycle.Alike m.collector.pairs) xs ys) : m.after xs = m.after ys := by
  generalize hpairs : m.collector.pairs = pairs at h
  induction h generalizing m with
  | nil => rfl
  | cons hxy _ ih =>
      subst hpairs
      rw [after_cons, after_cons, hxy.stamp_eq, m.cycle_congr _ hxy.outcomes_eq]
      exact ih _ rfl

end Monitor

/-! ## Complete and open rounds -/

namespace Round

/-- The cycle that a round comes to. -/
def cycle (r : Round) : Cycle := ⟨r.stamp, .ofList r.back⟩

/-- The pairs whose samples came back, in the order in which they came. -/
def order (r : Round) : List Pair := r.back.map (·.1)

/-- A round whose samples come back in an order of its own. -/
def inOrder (stamp : Float) (order : List Pair) (outcomes : Outcomes) : Round :=
  ⟨stamp, order.map fun p => (p, outcomes p.1 p.2)⟩

@[simp] theorem order_inOrder (stamp : Float) (order : List Pair) (outcomes : Outcomes) :
    (inOrder stamp order outcomes).order = order := by
  rw [Round.order, inOrder, List.map_map]
  exact List.map_id order

theorem lookup_inOrder (stamp : Float) {order : List Pair} (outcomes : Outcomes) {p : Pair}
    (hp : p ∈ order) :
    (inOrder stamp order outcomes).back.lookup p = some (outcomes p.1 p.2) := by
  rw [inOrder]
  induction order with
  | nil => cases hp
  | cons q rest ih =>
      rw [List.map_cons, List.lookup_cons]
      by_cases hq : p = q
      · subst hq
        rw [beq_self_eq_true]
      · rw [beq_false_of_ne hq]
        exact ih ((List.mem_cons.mp hp).resolve_left hq)

/-- Whatever the order was, each pair finds what its own sample came to. -/
theorem agree_inOrder (c : Collector) (stamp : Float) {order : List Pair} (outcomes : Outcomes)
    (h : ∀ p ∈ c.pairs, p ∈ order) :
    c.Agree (.ofList (inOrder stamp order outcomes).back) outcomes := by
  intro p hp
  rw [Outcomes.ofList, lookup_inOrder stamp outcomes (h p hp)]
  rfl

theorem events_concat (stamp : Float) (back : List (Pair × Sample)) (last : Pair × Sample) :
    events ⟨stamp, back ++ [last]⟩ = events ⟨stamp, back⟩ ++ [.reply last.1 last.2] := by
  rw [events, List.map_append]
  rfl

/-- A round in which every polled pair came back, and each of them once. -/
def Complete (c : Collector) (r : Round) : Prop := r.order.Perm c.pairs

/-- A round in which a sample is missing. -/
def Open (c : Collector) (r : Round) : Prop := ∃ p ∈ c.pairs, p ∉ r.order

end Round

namespace Run

theorem isComplete_iff (c : Collector) (back : List (Pair × Sample)) :
    isComplete c back ↔ ∀ p ∈ c.pairs, p ∈ back.map (·.1) := by
  rw [isComplete, List.all_eq_true]
  refine forall_congr' fun p => imp_congr_right fun _ => ?_
  rw [List.lookup_isSome_iff, List.mem_map]
  simp only [beq_iff_eq, @eq_comm _ p]

theorem await_of_missing (m : Monitor) (stamp : Float) {back : List (Pair × Sample)}
    (h : ∃ p ∈ m.collector.pairs, p ∉ back.map (·.1)) :
    await m stamp back = ⟨m, .sampling stamp back⟩ := by
  obtain ⟨p, hp, hmissing⟩ := h
  rw [await, if_neg]
  intro hcomplete
  exact hmissing ((isComplete_iff _ _).mp hcomplete p hp)

theorem follow_of_open (m : Monitor) (stamp : Float) (back : List (Pair × Sample))
    (h : Round.Open m.collector ⟨stamp, back⟩) :
    follow ⟨m, .ticking⟩ (Round.events ⟨stamp, back⟩) = ⟨m, .sampling stamp back⟩ := by
  induction back using List.reverseRecOn with
  | nil => exact await_of_missing m stamp h
  | append_singleton back last ih =>
      have hbefore : Round.Open m.collector ⟨stamp, back⟩ := by
        obtain ⟨p, hp, hmissing⟩ := h
        refine ⟨p, hp, fun hback => hmissing ?_⟩
        rw [Round.order, List.map_append]
        exact List.mem_append_left _ hback
      rw [Round.events_concat, follow_append, ih hbefore]
      exact await_of_missing m stamp h

theorem follow_of_complete (m : Monitor) (r : Round) (h : r.Complete m.collector) :
    follow ⟨m, .ticking⟩ r.events = ⟨m.cycle r.stamp (.ofList r.back), .ticking⟩ := by
  obtain ⟨stamp, back⟩ := r
  cases back using List.reverseRecOn with
  | nil => exact absurd (List.nil_perm.mp h) m.collector.pairs_ne_nil
  | append_singleton back last =>
      have hnodup : (Round.order ⟨stamp, back ++ [last]⟩).Nodup :=
        h.nodup_iff.mpr m.collector.pairs_nodup
      rw [Round.order, List.map_append, List.nodup_append] at hnodup
      have hopen : Round.Open m.collector ⟨stamp, back⟩ := by
        refine ⟨last.1, h.mem_iff.mp (List.mem_map_of_mem (by simp)), fun hback => ?_⟩
        exact hnodup.2.2 _ hback _ (by simp) rfl
      rw [Round.events_concat, follow_append, follow_of_open m stamp back hopen]
      show await m stamp (back ++ [last]) = _
      rw [await, if_pos]
      exact (isComplete_iff _ _).mpr fun p hp => h.mem_iff.mpr hp

theorem follow_rounds (m : Monitor) (rounds : List Round)
    (h : ∀ r ∈ rounds, r.Complete m.collector) :
    follow ⟨m, .ticking⟩ (rounds.flatMap Round.events) =
      ⟨m.after (rounds.map Round.cycle), .ticking⟩ := by
  induction rounds generalizing m with
  | nil => rfl
  | cons r rest ih =>
      rw [List.flatMap_cons, follow_append, follow_of_complete m r (h r List.mem_cons_self)]
      exact ih _ fun r' hr' => h r' (List.mem_cons_of_mem _ hr')

theorem follow_stopped (m : Monitor) (late : List Event) :
    follow ⟨m, .stopped⟩ late = ⟨m, .stopped⟩ := by
  induction late with
  | nil => rfl
  | cons event rest ih => cases event <;> exact ih

end Run

end LinkTelemetry
