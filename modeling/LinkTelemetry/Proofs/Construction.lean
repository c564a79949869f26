import LinkTelemetry.Config.Load
import LinkTelemetry.Host.Chance
import LinkTelemetry.Proofs.EngineCycles
import LinkTelemetry.Proofs.Tables

/-!
# What a configuration builds

The sources, the collector and the store each check what they are built from,
and the configuration is checked as a whole before. Only that one check ever
decides: whatever it accepts passes the others (`Config.Valid` holds what they
look for), and what it refuses is refused with its own error. The engine is
the one exception, since it asks the store first.

In particular the names of the endpoints are distinct. So the collector polls
them as they are listed, the router has a route for each, and the route leads
to the source that the configuration gives this endpoint, in every cycle. What
the source says in time is the answer; the deadline is that of the
configuration.
-/

namespace LinkTelemetry

theorem eraseDups_eq_self {α : Type} [BEq α] [LawfulBEq α] {l : List α} (h : l.Nodup) :
    l.eraseDups = l := by
  induction l with
  | nil => rfl
  | cons a rest ih =>
      rw [List.nodup_cons] at h
      have hrest : rest.filter (fun b => !b == a) = rest := by
        refine List.filter_eq_self.mpr fun b hb => ?_
        rw [Bool.not_eq_true', beq_eq_false_iff_ne]
        rintro rfl
        exact h.1 hb
      rw [List.eraseDups_cons, hrest, ih h.2]

theorem toNat_ne_zero {n : UInt64} (h : n ≠ 0) : n.toNat ≠ 0 :=
  fun hzero => h (UInt64.toNat_inj.mp hzero)

namespace Config

/-- What an accepted configuration can be relied on for. -/
structure Valid (c : Config) : Prop where
  endpoints_ne_nil : c.endpoints ≠ []
  metrics_ne_nil : c.metrics ≠ []
  capacity_ne_zero : c.historyCapacity ≠ 0
  interval_ne_zero : c.intervalMs ≠ 0
  timeout_ne_zero : c.sampleTimeoutMs ≠ 0
  names_nodup : c.endpointNames.Nodup

theorem nodup_of_validateEndpoints {seen : List EndpointName} {endpoints : List EndpointConfig}
    (h : validateEndpoints seen endpoints = .ok ()) :
    (endpoints.map (·.name)).Nodup ∧ ∀ e ∈ endpoints, e.name ∉ seen := by
  induction endpoints generalizing seen with
  | nil => simp
  | cons e rest ih =>
      rw [validateEndpoints] at h
      split at h
      · cases h
      · next hseen =>
          split at h
          · cases h
          · obtain ⟨hnodup, hfree⟩ := ih h
            rw [List.contains_iff_mem] at hseen
            constructor
            · rw [List.map_cons, List.nodup_cons]
              refine ⟨fun hmem => ?_, hnodup⟩
              obtain ⟨f, hf, hname⟩ := List.mem_map.mp hmem
              exact hfree f hf (hname ▸ List.mem_cons_self)
            · intro f hf
              rcases List.mem_cons.mp hf with rfl | hf
              · exact hseen
              · exact fun hmem => hfree f hf (List.mem_cons_of_mem _ hmem)

theorem valid_of_validate {c : Config} (h : c.validate = .ok ()) : c.Valid := by
  rw [validate] at h
  split at h
  · cases h
  split at h
  · cases h
  split at h
  · cases h
  split at h
  · cases h
  split at h
  · cases h
  next hendpoints hmetrics hcapacity hinterval htimeout =>
    split at h
    · cases h
    · next hnames =>
        rw [List.isEmpty_iff] at hendpoints hmetrics
        exact ⟨hendpoints, hmetrics, hcapacity, hinterval, htimeout,
          (nodup_of_validateEndpoints hnames).1⟩

theorem Valid.names_ne_nil {c : Config} (h : c.Valid) : c.endpointNames ≠ [] :=
  fun hnil => h.endpoints_ne_nil (List.map_eq_nil_iff.mp hnil)

/-- Whatever is loaded is valid. -/
theorem validate_of_load {host : Host} {options : LoadOptions} {c : Config}
    (h : load host options = .ok c) : c.validate = .ok () := by
  obtain ⟨base, -, h⟩ := bind_eq_ok.mp h
  dsimp only at h
  split at h
  · next hvalid =>
      cases h
      exact hvalid
  · cases h

end Config

/-! ## One check for every part -/

namespace Router

/-- The routes of a configuration. -/
def routes (chance : Source.Chance) (c : Config) : List (EndpointName × Source) :=
  c.endpoints.map fun e => (e.name, Source.ofSpec chance e.name e.source)

theorem ofConfig_of_valid (chance : Source.Chance) {c : Config} (h : c.validate = .ok ()) :
    ∃ log, ofConfig chance c = .ok (.ofList (routes chance c), log) := by
  rw [ofConfig, h]
  exact ⟨_, rfl⟩

theorem ofConfig_of_error (chance : Source.Chance) {c : Config} {fault : ConfigError}
    (h : c.validate = .error fault) : ofConfig chance c = .error fault := by
  rw [ofConfig, h]

end Router

namespace Collector

theorem exists_timed {endpoints : List EndpointName} {metrics : List Metric}
    {interval timeout : Nat} (hendpoints : endpoints ≠ []) (hmetrics : metrics ≠ [])
    (hinterval : interval ≠ 0) (htimeout : timeout ≠ 0) :
    ∃ c, timed endpoints metrics (some interval) (some timeout) = .ok c ∧
      c.intervalMs = interval ∧ c.timeoutMs = timeout := by
  obtain ⟨c, hc⟩ : ∃ c, new endpoints metrics = .ok c := by
    rw [new, dif_neg hendpoints, dif_neg hmetrics]
    exact ⟨_, rfl⟩
  obtain ⟨paced, hpaced, hpace⟩ : ∃ paced, c.withInterval interval = .ok paced ∧
      paced.intervalMs = interval := ⟨_, dif_neg hinterval, rfl⟩
  obtain ⟨bounded, hbounded, hkept, hbound⟩ : ∃ bounded, paced.withTimeout timeout = .ok bounded ∧
      bounded.intervalMs = paced.intervalMs ∧ bounded.timeoutMs = timeout :=
    ⟨_, if_neg htimeout, rfl, rfl⟩
  exact ⟨bounded, bind_eq_ok.mpr ⟨c, hc, bind_eq_ok.mpr ⟨paced, hpaced, hbounded⟩⟩,
    hkept.trans hpace, hbound⟩

theorem ofConfig_of_valid {c : Config} (h : c.validate = .ok ()) :
    ∃ collector, ofConfig c = .ok collector ∧ collector.IsNew c.endpointNames c.metrics ∧
      collector.intervalMs = c.intervalMs.toNat ∧
      collector.timeoutMs = c.sampleTimeoutMs.toNat := by
  have hvalid := Config.valid_of_validate h
  obtain ⟨collector, hcollector, htimes⟩ := exists_timed hvalid.names_ne_nil hvalid.metrics_ne_nil
    (toNat_ne_zero hvalid.interval_ne_zero) (toNat_ne_zero hvalid.timeout_ne_zero)
  exact ⟨collector, bind_eq_ok.mpr ⟨(), h, hcollector⟩, isNew_of_timed hcollector, htimes⟩

theorem ofConfig_of_error {c : Config} {fault : ConfigError} (h : c.validate = .error fault) :
    ofConfig c = .error fault := by
  rw [ofConfig, h]
  rfl

end Collector

namespace Engine

/-- The engine of a configuration before its first cycle. -/
structure IsNew (chance : Source.Chance) (c : Config) (engine : Engine) : Prop where
  valid : c.Valid
  config_eq : engine.config = c
  router_eq : engine.router = .ofList (Router.routes chance c)
  store_eq : engine.monitor.store = ⟨.empty, [], c.historyCapacity.toNat, 0⟩
  collector : engine.monitor.collector.IsNew c.endpointNames c.metrics
  interval_eq : engine.monitor.collector.intervalMs = c.intervalMs.toNat
  timeout_eq : engine.monitor.collector.timeoutMs = c.sampleTimeoutMs.toNat

theorem exists_new (chance : Source.Chance) {c : Config} (h : c.validate = .ok ()) :
    ∃ engine, new chance c = .ok engine ∧ engine.IsNew chance c := by
  have hvalid := Config.valid_of_validate h
  obtain ⟨log, hrouter⟩ := Router.ofConfig_of_valid chance h
  obtain ⟨collector, hcollector, hnew, hinterval, htimeout⟩ := Collector.ofConfig_of_valid h
  let store : Store := ⟨.empty, [], c.historyCapacity.toNat, 0⟩
  have hstore : Store.new c.historyCapacity.toNat = .ok store :=
    if_neg (toNat_ne_zero hvalid.capacity_ne_zero)
  refine ⟨⟨c, .ofList (Router.routes chance c), ⟨collector, store, log⟩⟩, ?_,
    hvalid, rfl, rfl, rfl, hnew, hinterval, htimeout⟩
  rw [new, hstore, hrouter, hcollector]
  rfl

theorem new_of_error (chance : Source.Chance) {c : Config} {fault : ConfigError}
    (h : c.validate = .error fault) :
    new chance c = .error (if c.historyCapacity = 0 then .zeroCapacity else fault) := by
  rw [new, Store.new]
  by_cases hzero : c.historyCapacity = 0
  · rw [if_pos hzero, hzero]
    rfl
  · rw [if_neg hzero, if_neg (toNat_ne_zero hzero), Router.ofConfig_of_error chance h]
    rfl

theorem isNew_of_new {chance : Source.Chance} {c : Config} {engine : Engine}
    (h : new chance c = .ok engine) : engine.IsNew chance c := by
  cases hvalidate : c.validate with
  | error fault =>
      rw [new_of_error chance hvalidate] at h
      cases h
  | ok =>
      obtain ⟨built, hbuilt, hnew⟩ := exists_new chance hvalidate
      rw [h] at hbuilt
      cases hbuilt
      exact hnew

namespace IsNew

variable {chance : Source.Chance} {c : Config} {engine : Engine} (h : engine.IsNew chance c)
include h

theorem endpoints_eq : engine.monitor.collector.endpoints = c.endpointNames := by
  rw [h.collector.endpoints_eq, eraseDups_eq_self h.valid.names_nodup]

theorem routes_nodup : ((Router.routes chance c).map (·.1)).Nodup := by
  have hnames : (Router.routes chance c).map (·.1) = c.endpointNames := by
    rw [Router.routes, List.map_map]
    rfl
  rw [hnames]
  exact h.valid.names_nodup

theorem size_router : engine.router.size = c.endpoints.length := by
  rw [h.router_eq, NameMap.size_ofList h.routes_nodup, Router.routes, List.length_map]

theorem source_of_mem {e : EndpointConfig} (he : e ∈ c.endpoints) (o : Overflow)
    (questions : List (Host × Pair)) :
    (engine.router.asked o questions).get? e.name =
      some ((Source.ofSpec chance e.name e.source).asked o e.name (about e.name questions)) := by
  have hroute : (e.name, Source.ofSpec chance e.name e.source) ∈ Router.routes chance c :=
    List.mem_map_of_mem he
  rw [Router.get?_asked, h.router_eq, (NameMap.get?_ofList_iff h.routes_nodup).mpr hroute]
  rfl

theorem answer_of_mem {o : Overflow} {later : Engine} (hlater : engine.Continues o later)
    {conditions : Conditions} {answer : Pair × Attempt}
    (hanswer : answer ∈ (later.poll o conditions).answers) :
    ∃ e ∈ c.endpoints, e.name = answer.1.1 ∧ ∃ attempt,
      (Source.ofSpec chance e.name e.source).MayAnswer o conditions.host e.name answer.1.2 attempt ∧
      answer.2 =
        if isLate c.sampleTimeoutMs.toNat (conditions.delayMs answer.1) then .ok (.error .timeout)
        else attempt := by
  obtain ⟨hpair, past, hattempt⟩ := hlater.mem_answers_poll hanswer
  have hname := ((Collector.mem_pairs ..).mp hpair).1
  rw [h.endpoints_eq] at hname
  obtain ⟨e, he, hname⟩ := List.mem_map.mp hname
  refine ⟨e, he, hname, _, ⟨about e.name past, rfl⟩, ?_⟩
  rw [hattempt, h.timeout_eq, ← hname, Router.attempt_ask (h.source_of_mem he o past)]

end IsNew

/-- How an engine follows its configuration. -/
structure Follows (chance : Source.Chance) (c : Config) (engine : Engine) : Prop where
  config_eq : engine.config = c
  store_eq : engine.monitor.store = ⟨.empty, [], c.historyCapacity.toNat, 0⟩
  endpoints_eq : engine.monitor.collector.endpoints = c.endpointNames
  interval_eq : engine.monitor.collector.intervalMs = c.intervalMs.toNat
  timeout_eq : engine.monitor.collector.timeoutMs = c.sampleTimeoutMs.toNat
  size_router : engine.router.size = c.endpoints.length
  /-- The source of an endpoint has nothing of earlier samples to begin with. -/
  fresh : ∀ e ∈ c.endpoints, (Source.ofSpec chance e.name e.source).IsFresh
  /-- After any questions, in any order, the route of an endpoint leads to the
  source of its own settings. -/
  source_of_mem : ∀ e ∈ c.endpoints, ∀ o questions,
    let source := (Source.ofSpec chance e.name e.source).asked o e.name (about e.name questions)
    (engine.router.asked o questions).get? e.name = some source ∧
      source.HasSettings chance e.name e.source
  /-- Every cycle gets an answer for every pair. -/
  map_answers : ∀ o rounds later, engine.after o rounds = .ok later → ∀ conditions,
    (later.poll o conditions).answers.map (·.1) = engine.monitor.collector.pairs
  /-- Every answer in time is that of such a source, and none says that there
  is none. -/
  answer_of_mem : ∀ o rounds later, engine.after o rounds = .ok later → ∀ conditions,
    ∀ answer ∈ (later.poll o conditions).answers,
      (∃ e ∈ c.endpoints, e.name = answer.1.1 ∧ ∃ attempt,
        (Source.ofSpec chance e.name e.source).MayAnswer o conditions.host e.name answer.1.2
          attempt ∧
        answer.2 =
          if isLate c.sampleTimeoutMs.toNat (conditions.delayMs answer.1) then
            .ok (.error .timeout)
          else attempt) ∧
      ∀ sample, answer.2 = .ok sample → Routed sample
  /-- Cycles come to their end, unless a build that checks its additions stops
  at the times of the processor. -/
  stops_only : ∀ o rounds panic, engine.after o rounds = .error panic →
    o = .stops ∧ panic = .additionOverflow ∧ .cpuPercent ∈ c.metrics ∧
      ∃ e ∈ c.endpoints, ∃ port probe interfaces, e.source = .procfs port probe interfaces

namespace IsNew

variable {chance : Source.Chance} {c : Config} {engine : Engine} (h : engine.IsNew chance c)
include h

theorem stops_only {o : Overflow} {rounds : List Round} {panic : Panic}
    (hpanic : engine.after o rounds = .error panic) :
    o = .stops ∧ panic = .additionOverflow ∧ .cpuPercent ∈ c.metrics ∧
      ∃ e ∈ c.endpoints, ∃ port probe interfaces, e.source = .procfs port probe interfaces := by
  obtain ⟨later, conditions, hlater, ⟨⟨name, m⟩, attempt⟩, hanswer, hstopped⟩ :=
    exists_answer_of_after hpanic
  obtain ⟨e, he, -, attempt, ⟨questions, hattempt⟩, hdeadline⟩ := h.answer_of_mem hlater hanswer
  have hmetric : m ∈ engine.monitor.collector.metrics :=
    ((Collector.mem_pairs ..).mp (hlater.mem_answers_poll hanswer).1).2
  rw [hstopped] at hdeadline
  split at hdeadline
  · cases hdeadline
  · rw [← hdeadline] at hattempt
    obtain ⟨⟨state, hstate⟩, rfl, ho, hoverflow⟩ := Source.stops_of_ask hattempt.symm
    rw [h.collector.metrics_eq, List.mem_eraseDups] at hmetric
    have hsettings := (Source.hasSettings_ofSpec chance e.name e.source).asked o questions
    rw [hstate] at hsettings
    exact ⟨ho, hoverflow, hmetric, e, he, hsettings.spec_of_procfs⟩

theorem follows : engine.Follows chance c where
  config_eq := h.config_eq
  store_eq := h.store_eq
  endpoints_eq := h.endpoints_eq
  interval_eq := h.interval_eq
  timeout_eq := h.timeout_eq
  size_router := h.size_router
  fresh e _ := Source.isFresh_ofSpec chance e.name e.source
  source_of_mem e he o questions :=
    ⟨h.source_of_mem he o questions, (Source.hasSettings_ofSpec chance e.name e.source).asked o _⟩
  map_answers o rounds later hlater conditions := by
    rw [poll, map_answers_foldl_ask, (continues_after hlater).pairs_eq]
    rfl
  answer_of_mem o rounds later hlater conditions answer hanswer := by
    have howner := h.answer_of_mem (continues_after hlater) hanswer
    refine ⟨howner, fun sample hsample => ?_⟩
    obtain ⟨e, -, -, attempt, ⟨questions, hattempt⟩, hdeadline⟩ := howner
    rw [hsample] at hdeadline
    split at hdeadline
    · cases hdeadline
      intro e h
      cases h
    · rw [← hdeadline] at hattempt
      have hsettings := (Source.hasSettings_ofSpec chance e.name e.source).asked o questions
      exact hsettings.routed_ask hattempt.symm
  stops_only o rounds panic hpanic := h.stops_only hpanic

end IsNew

end Engine

/-- The validation of a configuration decides whether the parts of an engine
can be built from it, and with which error they cannot. The engine that is
built polls exactly the endpoints of its configuration, each through the
source that is configured for it. Whatever is loaded can be built. -/
theorem validation_decides_construction (chance : Source.Chance) (c : Config) :
    (Router.ofConfig chance c).map (fun _ => ()) = c.validate ∧
    (Collector.ofConfig c).map (fun _ => ()) = c.validate ∧
    (Engine.new chance c).map (fun _ => ()) =
      (if c.historyCapacity = 0 then .error .zeroCapacity else c.validate) ∧
    ((∃ engine, Engine.new chance c = .ok engine) ↔ c.validate = .ok ()) ∧
    (∀ engine, Engine.new chance c = .ok engine → engine.Follows chance c) ∧
    ∀ host options, Config.load host options = .ok c →
      ∃ engine, Engine.new chance c = .ok engine := by
  cases h : c.validate with
  | error fault =>
      have hnew := Engine.new_of_error chance h
      refine ⟨?_, ?_, ?_, ?_, ?_, ?_⟩
      · rw [Router.ofConfig_of_error chance h]
        rfl
      · rw [Collector.ofConfig_of_error h]
        rfl
      · rw [hnew]
        split <;> rfl
      · constructor
        · rintro ⟨engine, hengine⟩
          rw [hnew] at hengine
          cases hengine
        · intro hok
          cases hok
      · intro engine hengine
        rw [hnew] at hengine
        cases hengine
      · intro host options hload
        rw [Config.validate_of_load hload] at h
        cases h
  | ok =>
      obtain ⟨log, hrouter⟩ := Router.ofConfig_of_valid chance h
      obtain ⟨collector, hcollector, -⟩ := Collector.ofConfig_of_valid h
      obtain ⟨engine, hengine, hnew⟩ := Engine.exists_new chance h
      refine ⟨?_, ?_, ?_, ?_, ?_, ?_⟩
      · rw [hrouter]
        rfl
      · rw [hcollector]
        rfl
      · rw [hengine, if_neg hnew.valid.capacity_ne_zero]
        rfl
      · exact ⟨fun _ => rfl, fun _ => ⟨engine, hengine⟩⟩
      · intro other hother
        exact (Engine.isNew_of_new hother).follows
      · exact fun _ _ _ => ⟨engine, hengine⟩

/-- The demonstration is loaded with another capacity and built. Where
everything is missing the engine speaks of the capacity, and the validation of
the endpoints. -/
theorem validation_decides_construction_of_demo :
    (let c : Config := { Config.demo with historyCapacity := 2 }
    Config.load .bare { demo := true, historyCapacity := some 2 } = .ok c ∧
      ∃ engine, Engine.new (Host.chance 7) c = .ok engine ∧ engine.Follows (Host.chance 7) c) ∧
    let blank : Config := { Config.standard with historyCapacity := 0 }
    blank.validate = .error .noEndpoints ∧
      (Engine.new (Host.chance 7) blank).map (fun _ => ()) = .error .zeroCapacity := by
  refine ⟨?_, rfl, ?_⟩
  · intro c
    have hload : Config.load .bare { demo := true, historyCapacity := some 2 } = .ok c := rfl
    obtain ⟨-, -, -, -, hfollows, hloaded⟩ := validation_decides_construction (Host.chance 7) c
    obtain ⟨engine, hengine⟩ := hloaded .bare _ hload
    exact ⟨hload, engine, hengine, hfollows engine hengine⟩
  · obtain ⟨-, -, hnew, -⟩ :=
      validation_decides_construction (Host.chance 7) { Config.standard with historyCapacity := 0 }
    rw [hnew, if_pos rfl]

end LinkTelemetry
