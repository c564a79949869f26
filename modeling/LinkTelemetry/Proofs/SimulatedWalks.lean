import LinkTelemetry.Proofs.FloatRange
import LinkTelemetry.Proofs.Tables
import LinkTelemetry.Source.Simulated

/-!
# Walks that stay in range and apart

Chance decides about every sample of the simulated source, but only within
limits: a byte total grows by a bounded amount or starts again, and any other
metric moves by its spread. Nothing is asked of the draws beyond this
(`Draw.Within`), so what holds here holds of every sequence of draws, and of
the source whatever generator it draws from (`Simulated.exists_visits`).

One sample keeps the invariant, that a walk is `InRange`, because a value is
brought back between its bounds after each step, and a sum of floats between
finite bounds is a number (`Binary64.not_isNaN_add`). It leaves everything in
place but the field behind its metric. A run is an induction over its samples.
-/

namespace LinkTelemetry.Source

open Binary64

/-- What chance may decide about a sample of a metric. -/
def Draw.Within (m : Metric) (draw : Draw) : Prop :=
  if m.isCounter then draw.growth ≤ maxGrowth
  else -Walk.spread m ≤ draw.drift ∧ draw.drift ≤ Walk.spread m

instance (m : Metric) (draw : Draw) : Decidable (draw.Within m) :=
  inferInstanceAs (Decidable (if m.isCounter then draw.growth ≤ maxGrowth
    else -Walk.spread m ≤ draw.drift ∧ draw.drift ≤ Walk.spread m))

/-- A byte total after another one: zero, or grown by 5 MiB at most. -/
def GrownFrom (before total : UInt64) : Prop :=
  total = 0 ∨ ∃ growth ≤ 5 * 1024 * 1024, total.toNat = (before.toNat + growth) % 2 ^ 64

theorem grownFrom_grow {draw : Draw} (h : draw.growth ≤ maxGrowth) (total : UInt64) :
    GrownFrom total (Walk.grow draw total) := by
  rw [Walk.grow]
  split
  · exact .inl rfl
  · exact .inr ⟨draw.growth.toNat, UInt64.le_iff_toNat_le.mp h, UInt64.toNat_add ..⟩

namespace Walk

structure InRange (walk : Walk) : Prop where
  connections : 0 ≤ walk.connections ∧ walk.connections ≤ 1200
  cpu : 0 ≤ walk.cpu ∧ walk.cpu ≤ 100
  memory : 0 ≤ walk.memory ∧ walk.memory ≤ 100
  latency : 1 ≤ walk.latency ∧ walk.latency ≤ 400

theorem inRange_fresh : InRange {} := ⟨by decide, by decide, by decide, by decide⟩

/-- The field behind a metric. -/
def field (walk : Walk) : Metric → UInt64 ⊕ Float
  | .bytesIn => .inl walk.bytesIn
  | .bytesOut => .inl walk.bytesOut
  | .activeConnections => .inr walk.connections
  | .cpuPercent => .inr walk.cpu
  | .memoryPercent => .inr walk.memory
  | .latencyMs => .inr walk.latency

/-- There is no field but those behind the metrics. -/
theorem ext_field {a b : Walk} (h : ∀ m, a.field m = b.field m) : a = b := by
  obtain ⟨bytesIn, bytesOut, connections, cpu, memory, latency⟩ := a
  cases h .bytesIn
  cases h .bytesOut
  cases h .activeConnections
  cases h .cpuPercent
  cases h .memoryPercent
  cases h .latencyMs
  rfl

/-! ## One sample -/

theorem clamp_mem {bounds : Float × Float} {x : Float} (hbounds : bounds.1 ≤ bounds.2)
    (hx : ¬ x.isNaN) : bounds.1 ≤ clamp bounds x ∧ clamp bounds x ≤ bounds.2 := by
  obtain ⟨hlo, hhi⟩ := not_isNaN_of_le hbounds
  rw [clamp]
  split
  · exact ⟨le_refl_of_not_isNaN hlo, hbounds⟩
  · next hlow =>
      split
      · exact ⟨hbounds, le_refl_of_not_isNaN hhi⟩
      · next hhigh =>
          refine ⟨(le_iff_of_not_isNaN hx hlo).mpr hlow, ?_⟩
          exact (le_iff_of_not_isNaN hhi hx).mpr hhigh

theorem move_mem {m : Metric} {draw : Draw} {x : Float} (hm : ¬ m.isCounter)
    (hx : (range m).1 ≤ x ∧ x ≤ (range m).2) (hdraw : draw.Within m) :
    (range m).1 ≤ move m draw x ∧ move m draw x ≤ (range m).2 := by
  have hbounds : (range m).1.isFinite ∧ (range m).2.isFinite ∧ (range m).1 ≤ (range m).2 := by
    cases m <;> decide
  rw [Draw.Within, if_neg hm] at hdraw
  have hfinite : x.isFinite := isFinite_of_between hbounds.1 hbounds.2.1 hx.1 hx.2
  exact clamp_mem hbounds.2.2 (not_isNaN_add hfinite (not_isNaN_of_le hdraw.2).1)

variable {walk : Walk} {m n : Metric} {draw : Draw}

theorem InRange.sample (h : walk.InRange) (hdraw : draw.Within m) :
    (walk.sample m draw).2.InRange := by
  cases m with
  | bytesIn => exact ⟨h.connections, h.cpu, h.memory, h.latency⟩
  | bytesOut => exact ⟨h.connections, h.cpu, h.memory, h.latency⟩
  | activeConnections =>
      exact { h with
        connections := move_mem (m := .activeConnections) nofun h.connections hdraw }
  | cpuPercent => exact { h with cpu := move_mem (m := .cpuPercent) nofun h.cpu hdraw }
  | memoryPercent => exact { h with memory := move_mem (m := .memoryPercent) nofun h.memory hdraw }
  | latencyMs => exact { h with latency := move_mem (m := .latencyMs) nofun h.latency hdraw }

theorem field_sample_of_ne (h : n ≠ m) : (walk.sample m draw).2.field n = walk.field n := by
  cases m <;> cases n <;> first | rfl | exact absurd rfl h

/-- What is read of a byte total is its field after the sample. -/
theorem sample_of_isCounter (draw : Draw) (hm : m.isCounter) {before : UInt64}
    (h : walk.field m = .inl before) :
    (walk.sample m draw).1 = .counter (grow draw before) ∧
      (walk.sample m draw).2.field m = .inl (grow draw before) := by
  cases m with
  | bytesIn =>
      cases h
      exact ⟨rfl, rfl⟩
  | bytesOut =>
      cases h
      exact ⟨rfl, rfl⟩
  | _ => cases hm

end Walk

namespace Walks

/-! ## A run -/

/-- A sample that is asked for, and what chance decides about it. -/
structure Visit where
  endpoint : EndpointName
  metric : Metric
  draw : Draw

def visit (walks : Walks) (v : Visit) : Walks := (walks.sample v.endpoint v.metric v.draw).2

def after (walks : Walks) (visits : List Visit) : Walks := visits.foldl visit walks

variable {walks : Walks} {v : Visit} {visits : List Visit}

theorem walk_visit (walks : Walks) (v : Visit) (e : EndpointName) :
    (walks.visit v).walk e =
      if e = v.endpoint then ((walks.walk e).sample v.metric v.draw).2 else walks.walk e := by
  show ((walks.insert v.endpoint ((walks.walk v.endpoint).sample v.metric v.draw).2).get? e).getD {}
    = _
  rw [NameMap.get?_insert]
  split
  · next he => rw [he, Option.getD_some]
  · rfl

theorem inRange_visit (h : ∀ e, (walks.walk e).InRange) (hdraw : v.draw.Within v.metric)
    (e : EndpointName) : ((walks.visit v).walk e).InRange := by
  rw [walk_visit]
  split
  · exact (h e).sample hdraw
  · exact h e

theorem inRange_after (h : ∀ e, (walks.walk e).InRange)
    (hdraws : ∀ v ∈ visits, v.draw.Within v.metric) (e : EndpointName) :
    ((walks.after visits).walk e).InRange := by
  induction visits generalizing walks with
  | nil => exact h e
  | cons v rest ih =>
      rw [List.forall_mem_cons] at hdraws
      exact ih (inRange_visit h hdraws.1) hdraws.2

theorem field_visit {e : EndpointName} {m : Metric} (h : (v.endpoint, v.metric) ≠ (e, m)) :
    ((walks.visit v).walk e).field m = (walks.walk e).field m := by
  rw [walk_visit]
  split
  · next he =>
      refine Walk.field_sample_of_ne fun hm => h ?_
      rw [he, hm]
  · rfl

/-- The samples of a run with what was read. -/
def readings (walks : Walks) : List Visit → List (Visit × Measurement)
  | [] => []
  | v :: rest => (v, (walks.sample v.endpoint v.metric v.draw).1) :: (walks.visit v).readings rest

/-- What a sample read of one byte total. -/
def totalOf? (e : EndpointName) (m : Metric) : Visit × Measurement → Option UInt64
  | (v, .counter total) => if (v.endpoint, v.metric) = (e, m) then some total else none
  | _ => none

/-- The last reading of a byte total in a run from fresh walks, and zero where
there is none. -/
def lastTotal (e : EndpointName) (m : Metric) (visits : List Visit) : UInt64 :=
  ((readings .empty visits).filterMap (totalOf? e m)).getLast?.getD 0

theorem fst_sample (walks : Walks) (e : EndpointName) (m : Metric) (draw : Draw) :
    (walks.sample e m draw).1 = ((walks.walk e).sample m draw).1 := rfl

theorem totalOf?_of_ne {e : EndpointName} {m : Metric} (h : (v.endpoint, v.metric) ≠ (e, m))
    (value : Measurement) : totalOf? e m (v, value) = none := by
  cases value with
  | counter total => rw [totalOf?, if_neg h]
  | gauge level => rfl
  | float x => rfl

/-- A byte total is what was read of it last. -/
theorem field_eq_last {e : EndpointName} {m : Metric} (hm : m.isCounter) {before : UInt64}
    (h : (walks.walk e).field m = .inl before) :
    ((walks.after visits).walk e).field m =
      .inl (((walks.readings visits).filterMap (totalOf? e m)).getLast?.getD before) := by
  induction visits generalizing walks before with
  | nil => exact h
  | cons v rest ih =>
      rw [readings, getLast?_filterMap_cons, Option.getD_or]
      refine ih ?_
      by_cases hv : (v.endpoint, v.metric) = (e, m)
      · cases hv
        obtain ⟨hvalue, hfield⟩ := Walk.sample_of_isCounter v.draw hm h
        rw [walk_visit, if_pos rfl, hfield, fst_sample, hvalue, totalOf?, if_pos rfl,
          Option.getD_some]
      · rw [field_visit hv, h, totalOf?_of_ne hv, Option.getD_none]

theorem walks_stay_in_range_and_apart {past : List Visit}
    (hpast : ∀ v ∈ past, v.draw.Within v.metric) :
    let walks := after .empty past
    (∀ e, (walks.walk e).InRange) ∧
      ∀ e m draw, draw.Within m →
        let (value, next) := walks.sample e m draw
        (m.isCounter → ∃ total, value = .counter total ∧ (next.walk e).field m = .inl total ∧
          (walks.walk e).field m = .inl (lastTotal e m past) ∧
          GrownFrom (lastTotal e m past) total) ∧
        (∀ n ≠ m, (next.walk e).field n = (walks.walk e).field n) ∧
        ∀ f ≠ e, next.walk f = walks.walk f := by
  intro walks
  refine ⟨inRange_after (fun _ => Walk.inRange_fresh) hpast, fun e m draw hdraw => ?_⟩
  have hkept : ∀ f n, (e, m) ≠ (f, n) →
      ((walks.visit ⟨e, m, draw⟩).walk f).field n = (walks.walk f).field n :=
    fun f n hne => field_visit (v := ⟨e, m, draw⟩) hne
  refine ⟨fun hm => ?_, fun n hn => hkept e n fun h => hn (Prod.ext_iff.mp h).2.symm,
    fun f hf => Walk.ext_field fun n => hkept f n fun h => hf (Prod.ext_iff.mp h).1.symm⟩
  have hzero : (walk .empty e).field m = .inl 0 := by
    cases m <;> first | rfl | cases hm
  have hlast : (walks.walk e).field m = .inl (lastTotal e m past) := field_eq_last hm hzero
  obtain ⟨hvalue, hfield⟩ := Walk.sample_of_isCounter draw hm hlast
  rw [Draw.Within, if_pos hm] at hdraw
  refine ⟨_, hvalue, ?_, hlast, grownFrom_grow hdraw _⟩
  have hnext := walk_visit walks ⟨e, m, draw⟩ e
  rw [if_pos rfl] at hnext
  exact (congrArg (Walk.field · m) hnext).trans hfield

/-- A load that falls, a total that grows, and another one that starts again
for the same endpoint. -/
theorem walks_stay_in_range_and_apart_of_three :
    let past : List Visit := [⟨"server", .cpuPercent, ⟨false, 0, -5.5⟩⟩,
      ⟨"client", .bytesIn, ⟨false, 4096, 0⟩⟩, ⟨"client", .bytesOut, ⟨true, 0, 0⟩⟩]
    let walks := after .empty past
    (∀ v ∈ past, v.draw.Within v.metric) ∧ (walks.walk "server").cpu = 19.5 ∧
      (∀ e, (walks.walk e).InRange) ∧
      ∃ total, (walks.sample "client" .bytesIn ⟨false, 4096, 0⟩).1 = .counter total ∧
        GrownFrom 4096 total := by
  intro past walks
  have hpast : ∀ v ∈ past, v.draw.Within v.metric := by decide
  obtain ⟨hrange, hstep⟩ := walks_stay_in_range_and_apart hpast
  obtain ⟨total, hvalue, -, -, hgrown⟩ :=
    (hstep "client" .bytesIn ⟨false, 4096, 0⟩ (by decide)).1 rfl
  exact ⟨hpast, by decide, hrange, total, hvalue, hgrown⟩

end Walks

/-- A generator that keeps within the limits, whatever it has drawn before. -/
def Generator.Within (g : Generator) : Prop := ∀ past m, (g.next past m).Within m

namespace Simulated

/-- The source makes the same walks, with the draws of its generator. -/
theorem sample_eq (source : Simulated) (e : EndpointName) (m : Metric) :
    (source.sample e m).1 = (source.walks.sample e m (source.generator.draw m).1).1 ∧
      (source.sample e m).2.walks = source.walks.visit ⟨e, m, (source.generator.draw m).1⟩ :=
  ⟨rfl, rfl⟩

theorem exists_visits (source : Simulated) (h : source.generator.Within)
    (pairs : List (EndpointName × Metric)) :
    ∃ visits : List Walks.Visit, visits.map (fun v => (v.endpoint, v.metric)) = pairs ∧
      (∀ v ∈ visits, v.draw.Within v.metric) ∧
      (pairs.foldl (fun source p => (source.sample p.1 p.2).2) source).walks =
        source.walks.after visits := by
  induction pairs generalizing source with
  | nil => exact ⟨[], rfl, nofun, rfl⟩
  | cons p rest ih =>
      obtain ⟨visits, hpairs, hdraws, hwalks⟩ := ih (source.sample p.1 p.2).2 h
      have hdraw : (source.generator.draw p.2).1.Within p.2 := h _ _
      refine ⟨⟨p.1, p.2, (source.generator.draw p.2).1⟩ :: visits, ?_, ?_, ?_⟩
      · rw [List.map_cons, hpairs]
      · exact List.forall_mem_cons.mpr ⟨hdraw, hdraws⟩
      · rw [List.foldl_cons, hwalks, (sample_eq source p.1 p.2).2, Walks.after, Walks.after,
          List.foldl_cons]

end Simulated

end LinkTelemetry.Source
