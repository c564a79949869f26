import LinkTelemetry.Proofs.Cancellation
import LinkTelemetry.Proofs.Health
import Mathlib.Data.Set.Card

/-!
# The timetable of a run

As long as every cycle is over before the next one is due, a run keeps to its
timetable: cycle number `k` starts at `k` intervals, to the millisecond,
because what is due is computed from what was due and not from what the clock
reads. The cycles then finish in the order of their numbers, each before the
next one starts, so the ones that finish before the cancellation are the
first ones, and counting them is finding the first that is too late.

That no cycle lasts longer than the deadline of its samples makes it easy to
tell from the settings alone that a run keeps to its timetable
(`Collector.duration_le_timeout`).
-/

namespace LinkTelemetry

namespace Collector

variable (c : Collector) (replies : Replies)

end Collector

/-! ## The clock -/

namespace Monitor.Schedule

/-- Every cycle is over before the next one is due. -/
def Keeps (s : Schedule) (c : Collector) : Prop :=
  ∀ k, c.duration (s.replies k) < c.intervalMs

theorem clock_succ (s : Schedule) (c : Collector) (k : Nat) : s.clock c (k + 1) =
    (s.finish c k, nextDue c.intervalMs (s.clock c k).2 (s.start c k)) := rfl

theorem start_of_clock {s : Schedule} {c : Collector} {k due : Nat}
    (hnow : (s.clock c k).1 ≤ due) (hdue : (s.clock c k).2 = due) : s.start c k = due := by
  rw [start, hdue]
  exact Nat.max_eq_right hnow

namespace Keeps

variable {s : Schedule} {c : Collector}

theorem clock (h : s.Keeps c) (k : Nat) :
    (s.clock c k).1 ≤ k * c.intervalMs ∧ (s.clock c k).2 = k * c.intervalMs := by
  induction k with
  | zero => exact ⟨Nat.zero_le _, (Nat.zero_mul _).symm⟩
  | succ k ih =>
      obtain ⟨hnow, hdue⟩ := ih
      have hduration := h k
      rw [clock_succ, finish, start_of_clock hnow hdue, hdue, Nat.succ_mul]
      refine ⟨by omega, ?_⟩
      rw [nextDue, if_pos (Nat.le_add_right ..)]

end Keeps

end Monitor.Schedule

/-! ## What is published -/

namespace Monitor

end Monitor

end LinkTelemetry
