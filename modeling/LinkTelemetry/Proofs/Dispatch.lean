import LinkTelemetry.PairMap
import LinkTelemetry.Proofs.ProcessorLoad
import LinkTelemetry.Proofs.ProcessorTimes
import LinkTelemetry.Source.Router

/-!
# Who answers for an endpoint

The router changes with every question, because the source that answers does.
Seen from one endpoint it does not change at all: what stands under its name
after any questions is the source it began with, after the questions about
this endpoint alone (`get?_asked`). So a route is never lost and never mixed
up with another one, and the source behind it stays of its kind and keeps its
settings (`Source.HasSettings`).

That no route is missing could also be said by a source. None does: the only
answer that names a missing route is the router's own
(`Source.HasSettings.routed_ask`). And no question stops the program but one for
the load of the processor, where a build checks its additions
(`Source.stops_of_ask`).
-/

namespace LinkTelemetry

/-! ## The router seen from one endpoint -/

/-- A source after questions about one endpoint. -/
def Source.asked (source : Source) (o : Overflow) (e : EndpointName)
    (questions : List (Host × Metric)) : Source :=
  questions.foldl (fun source q => (source.ask o q.1 e q.2).next) source

/-- Whether a question may come to an attempt after questions about its endpoint. -/
def Source.MayAnswer (source : Source) (o : Overflow) (host : Host) (e : EndpointName) (m : Metric)
    (attempt : Attempt) : Prop :=
  ∃ questions, attempt = ((source.asked o e questions).ask o host e m).attempt

/-- The questions about one endpoint. -/
def about (e : EndpointName) (questions : List (Host × Pair)) : List (Host × Metric) :=
  (questions.filter fun q => q.2.1 = e).map fun q => (q.1, q.2.2)

namespace Router

/-- A router after questions. -/
def asked (router : Router) (o : Overflow) (questions : List (Host × Pair)) : Router :=
  questions.foldl (fun router q => (router.ask o q.1 q.2.1 q.2.2).next) router

variable (router : Router) (o : Overflow)

theorem asked_append (past rest : List (Host × Pair)) :
    router.asked o (past ++ rest) = (router.asked o past).asked o rest := List.foldl_append

theorem get?_ask (host : Host) (e f : EndpointName) (m : Metric) :
    (router.ask o host f m).next.get? e =
      (router.get? e).map fun source =>
        if f = e then (source.ask o host e m).next else source := by
  rw [ask]
  split
  · next hnone =>
      by_cases h : f = e
      · rw [← h, hnone]
        rfl
      · simp [h]
  · next source hsome =>
      rw [NameMap.get?_insert]
      by_cases h : f = e
      · subst h
        simp [hsome]
      · simp [h, Ne.symm h]

theorem get?_asked (questions : List (Host × Pair)) (e : EndpointName) :
    (router.asked o questions).get? e =
      (router.get? e).map fun source => source.asked o e (about e questions) := by
  induction questions generalizing router with
  | nil => simp [asked, about, Source.asked]
  | cons q rest ih =>
      have hstep : (router.asked o (q :: rest)).get? e =
          ((router.ask o q.1 q.2.1 q.2.2).next.asked o rest).get? e := rfl
      rw [hstep, ih, get?_ask, Option.map_map]
      by_cases h : q.2.1 = e
      · simp [h, about, Source.asked, Function.comp_def]
      · simp [h, about, Source.asked, Function.comp_def]

variable {router o} in
theorem attempt_ask {e : EndpointName} {source : Source} (h : router.get? e = some source)
    (host : Host) (m : Metric) :
    (router.ask o host e m).attempt = (source.ask o host e m).attempt := by
  rw [ask, h]

end Router

/-! ## No source lacks a route -/

/-- Does not say that a route is missing. -/
def Routed {α : Type} (x : Except SourceError α) : Prop :=
  ∀ e, x ≠ .error (.unreachable (.noSource e))

namespace Routed

variable {α β : Type}

theorem ok (a : α) : Routed (.ok a) := nofun

theorem malformed (cause : Malformation) : Routed (.error (.malformed cause) : Except _ α) := nofun

theorem unsupported (m : Metric) : Routed (.error (.unsupported m) : Except _ α) := nofun

theorem error {cause : SourceError} (h : Routed (.error cause : Except _ α)) :
    Routed (.error cause : Except _ β) :=
  fun e heq => h e (congrArg Except.error (Except.error.inj heq))

theorem bind {x : Except SourceError α} {f : α → Except SourceError β} (hx : Routed x)
    (hf : ∀ a, Routed (f a)) : Routed (x >>= f) := by
  cases x with
  | error cause => exact hx.error
  | ok a => exact hf a

theorem map {x : Except SourceError α} (f : α → β) (hx : Routed x) : Routed (x.map f) := by
  cases x with
  | error cause => exact hx.error
  | ok a => exact ok (f a)

theorem mapM {f : α → Except SourceError β} (hf : ∀ a, Routed (f a)) (l : List α) :
    Routed (l.mapM f) := by
  induction l with
  | nil => exact ok []
  | cons a rest ih =>
      rw [List.mapM_cons]
      exact (hf a).bind fun b => ih.bind fun bs => ok (b :: bs)

end Routed

namespace Source

theorem routed_readWhole (text : List Char) : Routed (readWhole text) := by
  rw [readWhole]
  split
  · exact .ok _
  · exact .malformed _

theorem routed_readNumber (unit text : List Char) : Routed (readNumber unit text) := by
  simp only [readNumber]
  split
  · split
    · exact .ok _
    · exact .malformed _
  · exact .malformed _

theorem Companion.routed_sides (line : List Char) : Routed (sides line) := by
  rw [sides]
  split
  · exact .ok _
  · exact .malformed _

theorem Companion.routed_parse (m : Metric) (output : List Char) : Routed (parse m output) := by
  simp only [parse]
  split
  · exact .malformed _
  · cases m with
    | bytesIn => exact (routed_sides _).bind fun _ => (routed_readWhole _).bind fun _ => .ok _
    | bytesOut => exact (routed_sides _).bind fun _ => (routed_readWhole _).bind fun _ => .ok _
    | activeConnections => exact (routed_readWhole _).bind fun _ => .ok _
    | latencyMs => exact (routed_readNumber _ _).bind fun _ => .ok _
    | cpuPercent => exact .unsupported _
    | memoryPercent => exact .unsupported _

theorem Agent.routed_typedValue (output : List Char) : Routed (typedValue output) := by
  have hrefusal : ∀ typed, Routed (if isRefusal typed then
      .error (.malformed (.noSuchObject (.ofList typed))) else .ok typed) := by
    intro typed
    split
    · exact .malformed _
    · exact .ok _
  rw [typedValue]
  split
  · exact .malformed _
  · exact hrefusal _

theorem Agent.routed_parse (output : List Char) : Routed (parse output) := by
  refine (routed_typedValue output).bind fun typed => ?_
  split
  · exact .malformed _
  · dsimp only
    split
    · exact (routed_readWhole _).bind fun _ => .ok _
    split
    · exact (routed_readWhole _).bind fun _ => .ok _
    split
    · exact (routed_readWhole _).bind fun _ => .ok _
    split
    · exact (routed_readNumber _ _).bind fun _ => .ok _
    · exact .malformed _

theorem Agent.routed_parseExtend (m : Metric) (output : List Char) :
    Routed (parseExtend m output) := by
  refine (routed_typedValue output).bind fun typed => ?_
  split
  · exact Companion.routed_parse _ _
  · exact .malformed _

theorem routed_outputOf (host : Host) (program : String) (args : List String) :
    Routed (outputOf host program args) := by
  intro e
  rw [outputOf]
  split
  · nofun
  · nofun
  · split
    · nofun
    · simp only [failureOf]
      split
      · nofun
      · split <;> nofun

theorem Companion.routed_sample (c : Companion) (host : Host) (m : Metric) :
    Routed (c.sample host m) := by
  rw [Companion.sample]
  split
  · exact .unsupported _
  · exact (routed_outputOf _ _ _).bind fun _ => routed_parse _ _

theorem Agent.routed_sample (a : Agent) (host : Host) (m : Metric) : Routed (a.sample host m) := by
  rw [Agent.sample]
  split
  · exact .unsupported _
  · refine (routed_outputOf _ _ _).bind fun _ => ?_
    split
    · exact routed_parseExtend _ _
    · exact routed_parse _

namespace Procfs

theorem routed_traffic (name : String) (counters : List Char) : Routed (traffic name counters) := by
  simp only [traffic]
  split
  · split
    · exact .malformed _
    · exact .malformed _
    · exact .ok _
  · exact .malformed _

theorem routed_parseTraffic (interfaces : List String) (text : List Char) :
    Routed (parseTraffic interfaces text) := by
  refine Routed.bind (.mapM (fun _ => routed_traffic _ _) _) fun lines => ?_
  split
  · nofun
  · exact .ok _

theorem routed_parseCpuTimes {o : Overflow} {text : List Char} {x : Except SourceError CpuTimes}
    (h : parseCpuTimes o text = .ok x) : Routed x := by
  rw [parseCpuTimes] at h
  split at h
  · cases h
    exact .malformed _
  split at h
  · cases h
    exact .malformed _
  split at h
  · cases h
    exact .malformed _
  · obtain ⟨times, -, htimes⟩ := map_eq_ok.mp h
    cases htimes
    exact .ok _

theorem routed_parseMemory (text : List Char) : Routed (parseMemory text) := by
  rw [parseMemory]
  split
  · exact .malformed _
  split
  · exact .malformed _
  split
  · exact .malformed _
  · exact .ok _

end Procfs

namespace Local

variable (source : Local) (host : Host)

theorem routed_table (name : String) : Routed (source.table host name) := by
  intro e h
  simp only [table] at h
  split at h <;> cases h

theorem routed_latency : Routed (source.latency host) := by
  rw [latency]
  split
  · exact .unsupported _
  split
  · exact .ok _
  · nofun

section

variable {source host} {o : Overflow} {m : Metric} {x : Sample} {panic : Panic}

theorem routed_cpu (h : (source.cpu o host).1 = .ok x) : Routed x := by
  rw [cpu] at h
  split at h
  · cases h
  · next cause hcause =>
      cases h
      rw [cpuTimes] at hcause
      split at hcause
      · next htable =>
          cases hcause
          exact (htable ▸ source.routed_table host "stat").error
      · exact (Procfs.routed_parseCpuTimes hcause).error
  · cases h
    exact .ok _

theorem routed_sample (h : (source.sample o host m).1 = .ok x) : Routed x := by
  have htraffic : Routed (source.traffic host) :=
    (source.routed_table host "net/dev").bind (Procfs.routed_parseTraffic _)
  cases m with
  | bytesIn =>
      cases h
      exact htraffic.map _
  | bytesOut =>
      cases h
      exact htraffic.map _
  | activeConnections =>
      cases h
      exact ((source.routed_table host _).bind fun _ => .ok _).map _
  | cpuPercent => exact routed_cpu h
  | memoryPercent =>
      cases h
      exact ((source.routed_table host _).bind Procfs.routed_parseMemory).map _
  | latencyMs =>
      cases h
      exact (source.routed_latency host).map _

theorem stops_of_sample (h : (source.sample o host m).1 = .error panic) :
    m = .cpuPercent ∧ o = .stops ∧ panic = .additionOverflow := by
  cases m with
  | cpuPercent =>
      rw [fst_sample_cpuPercent] at h
      have htimes : source.cpuTimes o host = .error panic := map_eq_error.mp h
      rw [cpuTimes] at htimes
      split at htimes
      · cases htimes
      · exact ⟨rfl, Procfs.stops_of_parseCpuTimes htimes⟩
  | _ => cases h

end

end Local

/-! ## What a source is built from -/

/-- Whether a source is of the kind that a configuration asks for and has its
settings, whatever it keeps between samples. -/
inductive HasSettings (chance : Chance) (e : EndpointName) : SourceSpec → Source → Prop where
  | agent (host : String) (port : UInt16) (community version : String) (extend : Bool) :
    HasSettings chance e (.agent host port community version extend)
      (.agent ⟨host, port, community, version, extend, "snmpget"⟩)
  | companion (program : String) (args : List String) :
    HasSettings chance e (.companion program args) (.companion ⟨program, args⟩)
  | procfs (port : Option UInt16) (probe : Option String) (interfaces : List String)
      (lastCpu : Option Procfs.CpuTimes) :
    HasSettings chance e (.procfs port probe interfaces)
      (.procfs ⟨"/proc", port, probe, interfaces, lastCpu⟩)
  | simulated (seed : Option UInt64) (past : List Metric) (walks : Walks) :
    HasSettings chance e (.simulated seed)
      (.simulated ⟨⟨(chance.generator e seed).next, past⟩, walks⟩)

/-- Whether a source has nothing of earlier samples. -/
def IsFresh : Source → Prop
  | procfs state => state.lastCpu = none
  | simulated state => state.walks = .empty
  | _ => True

theorem isFresh_ofSpec (chance : Chance) (e : EndpointName) (spec : SourceSpec) :
    (ofSpec chance e spec).IsFresh := by
  cases spec with
  | agent | companion => trivial
  | procfs | simulated => rfl

section

variable {chance : Chance} {e : EndpointName} {spec : SourceSpec} {source : Source}

theorem hasSettings_ofSpec (chance : Chance) (e : EndpointName) (spec : SourceSpec) :
    HasSettings chance e spec (ofSpec chance e spec) := by
  cases spec with
  | agent => exact .agent ..
  | companion => exact .companion ..
  | procfs => exact .procfs ..
  | simulated => exact .simulated ..

theorem HasSettings.ask (h : HasSettings chance e spec source) (o : Overflow) (host : Host)
    (m : Metric) : HasSettings chance e spec (source.ask o host e m).next := by
  cases h with
  | agent => exact .agent ..
  | companion => exact .companion ..
  | procfs =>
      show HasSettings chance e _ (.procfs (Local.sample _ o host m).2)
      rw [Local.snd_sample]
      exact .procfs ..
  | simulated => exact .simulated ..

theorem HasSettings.asked (h : HasSettings chance e spec source) (o : Overflow)
    (questions : List (Host × Metric)) :
    HasSettings chance e spec (source.asked o e questions) := by
  induction questions generalizing source with
  | nil => exact h
  | cons q rest ih => exact ih (h.ask o q.1 q.2)

theorem HasSettings.spec_of_procfs {state : Local}
    (h : HasSettings chance e spec (Source.procfs state)) :
    ∃ port probe interfaces, spec = .procfs port probe interfaces := by
  cases h with
  | procfs port probe interfaces => exact ⟨port, probe, interfaces, rfl⟩

theorem HasSettings.routed_ask (h : HasSettings chance e spec source) {o : Overflow} {host : Host}
    {m : Metric} {x : Sample} (hx : (source.ask o host e m).attempt = .ok x) : Routed x := by
  cases h with
  | agent =>
      cases hx
      exact Agent.routed_sample _ host m
  | companion =>
      cases hx
      exact Companion.routed_sample _ host m
  | procfs => exact Local.routed_sample hx
  | simulated =>
      cases hx
      exact .ok _

/-- Only the local source can stop the program, at the times of the processor. -/
theorem stops_of_ask {o : Overflow} {host : Host} {m : Metric} {panic : Panic}
    (h : (source.ask o host e m).attempt = .error panic) :
    (∃ state, source = .procfs state) ∧ m = .cpuPercent ∧ o = .stops ∧
      panic = .additionOverflow := by
  cases source with
  | procfs state => exact ⟨⟨state, rfl⟩, Local.stops_of_sample h⟩
  | _ => cases h

end

end Source

end LinkTelemetry
