import LinkTelemetry.Proofs.Construction
import LinkTelemetry.Proofs.Framing
import LinkTelemetry.Proofs.Numerals

/-!
# What validation knows of a source

A configuration is accepted before anything is asked, so whatever is wrong with
it and not seen then is seen in every cycle. Validation sees that a name is
given twice, that a text which has to be there is blank, and that the version
of an agent is none of the two. All of this is decided exactly
(`validate_eq_ok_iff`).

A probe is another matter. It is to be an address and a port, and what is looked
for is the colon between them. A target is split at its last colon when it is
connected to, and without a port behind that colon there is nothing to connect
to: the latency of such an endpoint fails in every cycle, on every host. The
settings can be accepted nevertheless (`accepted_probe_without_port`).
-/

namespace LinkTelemetry

/-- Says something, and not only blanks. -/
def Speaks (text : String) : Prop := ∃ c ∈ text.toList, ¬ Text.isBlank c

/-- An address and a port in decimal, with a colon between them. Digits have no
colon, so it is the last one. -/
def Names (target address : String) (port : UInt16) : Prop :=
  ∃ digits, target.toList = address.toList ++ ':' :: digits ∧ Numeral.Denotes digits port.toNat

/-- The form that a probe is meant to have. -/
def IsTarget (target : String) : Prop := ∃ address port, address ≠ "" ∧ Names target address port

/-- Settings in order, where `IsProbe` is what is asked of a probe. -/
def SourceSpec.Usable (IsProbe : String → Prop) : SourceSpec → Prop
  | .agent host _ community version _ =>
    Speaks host ∧ Speaks community ∧ (version = "1" ∨ version = "2c")
  | .companion program _ => Speaks program
  | .procfs _ probe _ => ∀ target ∈ probe, IsProbe target
  | .simulated _ => True

/-- What is asked of a probe. -/
def HasColon (target : String) : Prop := ':' ∈ target.toList

/-! ## The check -/

theorem speaks_iff {text : String} : Speaks text ↔ ¬ isBlankText text := by
  rw [isBlankText, List.isEmpty_iff, Text.trim, Text.stripWhile_eq_nil_iff, Speaks]
  simp

theorem SourceSpec.fault?_eq_none_iff (spec : SourceSpec) :
    spec.fault? = none ↔ spec.Usable HasColon := by
  cases spec with
  | agent host port community version extend =>
      rw [fault?]
      split
      · next hhost => exact iff_of_false nofun fun h => speaks_iff.mp h.1 hhost
      · next hhost =>
          split
          · next hcommunity => exact iff_of_false nofun fun h => speaks_iff.mp h.2.1 hcommunity
          · next hcommunity =>
              split
              · next hversion => exact iff_of_false nofun fun h => h.2.2.elim hversion.1 hversion.2
              · next hversion =>
                  refine iff_of_true rfl ⟨speaks_iff.mpr hhost, speaks_iff.mpr hcommunity, ?_⟩
                  exact Decidable.or_iff_not_not_and_not.mpr hversion
  | companion program args =>
      rw [fault?]
      split
      · next hblank => exact iff_of_false nofun fun h => speaks_iff.mp h hblank
      · next hspeaks => exact iff_of_true rfl (speaks_iff.mpr hspeaks)
  | procfs port probe interfaces =>
      cases probe with
      | none => exact iff_of_true rfl nofun
      | some probe =>
          rw [fault?]
          split
          · next hcolon =>
              refine iff_of_true rfl fun target htarget => ?_
              cases htarget
              exact List.contains_iff_mem.mp hcolon
          · next hcolon =>
              exact iff_of_false nofun fun h => hcolon (List.contains_iff_mem.mpr (h probe rfl))
  | simulated seed => exact iff_of_true rfl trivial

namespace Config

theorem validateEndpoints_eq_ok_iff {seen : List EndpointName} {endpoints : List EndpointConfig} :
    validateEndpoints seen endpoints = .ok () ↔
      (endpoints.map (·.name)).Nodup ∧ (∀ e ∈ endpoints, e.name ∉ seen) ∧
        ∀ e ∈ endpoints, e.source.Usable HasColon := by
  constructor
  · intro h
    obtain ⟨hnodup, hfree⟩ := nodup_of_validateEndpoints h
    refine ⟨hnodup, hfree, ?_⟩
    clear hnodup hfree
    induction endpoints generalizing seen with
    | nil => simp
    | cons e rest ih =>
        rw [validateEndpoints] at h
        split at h
        · cases h
        · split at h
          · cases h
          · next hfault =>
              rw [List.forall_mem_cons]
              exact ⟨e.source.fault?_eq_none_iff.mp hfault, ih h⟩
  · rintro ⟨hnodup, hfree, husable⟩
    induction endpoints generalizing seen with
    | nil => rfl
    | cons e rest ih =>
        rw [List.map_cons, List.nodup_cons] at hnodup
        rw [List.forall_mem_cons] at hfree husable
        have hseen : ¬ seen.contains e.name := fun h => hfree.1 (List.contains_iff_mem.mp h)
        rw [validateEndpoints, if_neg hseen, e.source.fault?_eq_none_iff.mpr husable.1]
        refine ih hnodup.2 (fun f hf hmem => ?_) husable.2
        rcases List.mem_cons.mp hmem with hname | hmem
        · exact hnodup.1 (hname ▸ List.mem_map_of_mem hf)
        · exact hfree.2 f hf hmem

/-- What validation accepts. -/
theorem validate_eq_ok_iff (c : Config) :
    c.validate = .ok () ↔ c.Valid ∧ (∀ e ∈ c.endpoints, e.source.Usable HasColon) ∧
      c.thresholds.validate = .ok () := by
  constructor
  · intro h
    refine ⟨valid_of_validate h, ?_⟩
    rw [validate] at h
    split at h
    · cases h
    split at h
    · cases h
    split at h
    · cases h
    split at h
    · cases h
    split at h
    · cases h
    split at h
    · cases h
    next hnames => exact ⟨(validateEndpoints_eq_ok_iff.mp hnames).2.2, h⟩
  · rintro ⟨hvalid, husable, hthresholds⟩
    have hendpoints := List.isEmpty_iff.not.mpr hvalid.endpoints_ne_nil
    have hmetrics := List.isEmpty_iff.not.mpr hvalid.metrics_ne_nil
    have hnames : validateEndpoints [] c.endpoints = .ok () :=
      validateEndpoints_eq_ok_iff.mpr ⟨hvalid.names_nodup, by simp, husable⟩
    rw [validate, if_neg hendpoints, if_neg hmetrics, if_neg hvalid.capacity_ne_zero,
      if_neg hvalid.interval_ne_zero, if_neg hvalid.timeout_ne_zero, hnames]
    exact hthresholds

end Config

/-! ## Targets -/

theorem colon_not_mem_of_denotes {s : List Char} {n : Nat} (h : Numeral.Denotes s n) : ':' ∉ s := by
  obtain ⟨digits, hsign, -, hdigits, -⟩ := h
  have hcolon : ':' ∉ digits := fun hmem => absurd (hdigits ':' hmem) (by decide)
  rcases hsign with rfl | rfl
  · exact hcolon
  · exact List.not_mem_cons_of_ne_of_not_mem (by decide) hcolon

namespace Source

/-- An answer for the latency to a probe that has a colon. Whether anything is
connected to does not depend on the host. -/
inductive ProbeAnswer (host : Host) (probe : String) : Sample → Prop where
  | connected {address : String} {port : UInt16} {ms : Float} (hnames : Names probe address port)
      (h : host.connect address port = .ok ms) : ProbeAnswer host probe (.ok (.float ms))
  | refused {address : String} {port : UInt16} {reason : String}
      (hnames : Names probe address port) (h : host.connect address port = .error reason) :
      ProbeAnswer host probe (.error (.unreachable (.noConnection probe reason)))
  | portless (h : ∀ address port, ¬ Names probe address port) :
      ProbeAnswer host probe (.error (.unreachable (.noConnection probe "invalid port value")))

namespace Local

theorem splitTarget_eq_ok_iff {target address : String} {port : UInt16} :
    splitTarget target = .ok (address, port) ↔ Names target address port := by
  constructor
  · intro h
    rw [splitTarget] at h
    split at h
    · cases h
    · next before digits hsplit =>
        split at h
        · cases h
        · next n hport =>
            cases h
            refine ⟨digits, ?_, Numeral.readUInt16?_eq_some_iff.mp hport⟩
            rw [String.toList_ofList]
            exact (Text.splitLast_eq_some_iff.mp hsplit).2
  · rintro ⟨digits, htarget, hdigits⟩
    have hsplit : Text.splitLast ':' target.toList = some (address.toList, digits) :=
      Text.splitLast_eq_some_iff.mpr ⟨colon_not_mem_of_denotes hdigits, htarget⟩
    simp only [splitTarget, hsplit, Numeral.readUInt16?_eq_some_iff.mpr hdigits,
      String.ofList_toList]

theorem splitTarget_of_portless {target : String} (hcolon : HasColon target)
    (h : ∀ address port, ¬ Names target address port) :
    splitTarget target = .error "invalid port value" := by
  cases hsplit : splitTarget target with
  | ok named => exact absurd (splitTarget_eq_ok_iff.mp hsplit) (h named.1 named.2)
  | error reason =>
      rw [splitTarget] at hsplit
      split at hsplit
      · next hnone => exact absurd hcolon (Text.not_mem_of_splitLast hnone)
      · split at hsplit
        · exact congrArg _ (Except.error.inj hsplit).symm
        · cases hsplit

theorem probeAnswer_latency {source : Local} {probe : String} (hprobe : source.probe = some probe)
    (hcolon : HasColon probe) (host : Host) :
    ProbeAnswer host probe ((source.latency host).map .float) := by
  by_cases h : ∃ address port, Names probe address port
  · obtain ⟨address, port, hnames⟩ := h
    have hsplit := splitTarget_eq_ok_iff.mpr hnames
    simp only [latency, hprobe, hsplit, ok_bind]
    cases hconnect : host.connect address port with
    | ok ms => exact .connected hnames hconnect
    | error reason => exact .refused hnames hconnect
  · have hnone : ∀ address port, ¬ Names probe address port :=
      fun address port hnames => h ⟨address, port, hnames⟩
    simp only [latency, hprobe, splitTarget_of_portless hcolon hnone]
    exact .portless hnone

end Local

/-- Questions change what was read last, and not what is connected to. -/
theorem probeAnswer_of_mayAnswer {chance : Chance} {e : EndpointName} {port : Option UInt16}
    {probe : String} {interfaces : List String} (hcolon : HasColon probe) {o : Overflow}
    {host : Host} {attempt : Attempt}
    (h : (ofSpec chance e (.procfs port (some probe) interfaces)).MayAnswer o host e .latencyMs
      attempt) :
    ∃ answer, attempt = .ok answer ∧ ProbeAnswer host probe answer := by
  obtain ⟨questions, rfl⟩ := h
  have hsettings :=
    (hasSettings_ofSpec chance e (.procfs port (some probe) interfaces)).asked o questions
  generalize (ofSpec chance e (.procfs port (some probe) interfaces)).asked o e questions = source
    at hsettings
  cases hsettings with
  | procfs => exact ⟨_, rfl, Local.probeAnswer_latency rfl hcolon host⟩

end Source

/-- What an accepted configuration promises of its sources. The names are
distinct, an agent has a host, a community and one of the two versions, and a
companion has a program. A probe has a colon: after any questions, and on any
host, the latency is what connecting to the probe gives if a port stands behind
the last colon, and fails without anything being connected to if none does. -/
theorem accepted_sources_usable {c : Config} (h : c.validate = .ok ())
    (chance : Source.Chance) :
    c.endpointNames.Nodup ∧
    (∀ e ∈ c.endpoints, e.source.Usable HasColon) ∧
    ∀ e ∈ c.endpoints, ∀ port probe interfaces,
      e.source = .procfs port (some probe) interfaces → ∀ o host attempt,
        (Source.ofSpec chance e.name e.source).MayAnswer o host e.name .latencyMs attempt →
          ∃ answer, attempt = .ok answer ∧ Source.ProbeAnswer host probe answer := by
  obtain ⟨hvalid, husable, -⟩ := c.validate_eq_ok_iff.mp h
  refine ⟨hvalid.names_nodup, husable, ?_⟩
  intro e he port probe interfaces hsource o host attempt hattempt
  have hcolon := husable e he
  rw [hsource] at hcolon hattempt
  exact Source.probeAnswer_of_mayAnswer (hcolon probe rfl) hattempt

/-- An agent, a companion and a probe with a port, on a host without a network. -/
theorem accepted_sources_usable_of_three :
    let near : EndpointConfig := ⟨"near", .procfs none (some "localhost:8443") []⟩
    let c : Config := { Config.demo with
      endpoints := [⟨"far", .agent "10.0.0.1" 161 "public" "2c" false⟩,
        ⟨"beside", .companion "telemetry" []⟩, near] }
    let source := Source.ofSpec (Host.chance 7) near.name near.source
    c.validate = .ok () ∧ c.endpointNames.Nodup ∧ Names "localhost:8443" "localhost" 8443 ∧
      ∃ answer, (source.ask .stops .bare near.name .latencyMs).attempt = .ok answer ∧
        answer.isOk = false ∧ Source.ProbeAnswer .bare "localhost:8443" answer := by
  intro near c source
  have hvalid : c.validate = .ok () := rfl
  have hnames : Names "localhost:8443" "localhost" 8443 :=
    Source.Local.splitTarget_eq_ok_iff.mp rfl
  obtain ⟨hnodup, -, hanswers⟩ := accepted_sources_usable hvalid (Host.chance 7)
  obtain ⟨answer, hanswer, hprobe⟩ :=
    hanswers near (by simp [c]) none "localhost:8443" [] rfl .stops .bare _ ⟨[], rfl⟩
  refine ⟨hvalid, hnodup, hnames, answer, hanswer, ?_, hprobe⟩
  cases hanswer
  rfl

/-- A colon without a port behind it is accepted, and then nothing is ever
connected to. -/
theorem accepted_probe_without_port :
    let here : EndpointConfig := ⟨"here", .procfs none (some "localhost:") []⟩
    let c : Config := { Config.demo with endpoints := [here] }
    c.validate = .ok () ∧ ¬ here.source.Usable IsTarget ∧
      ∀ chance o host attempt,
        (Source.ofSpec chance "here" here.source).MayAnswer o host "here" .latencyMs attempt →
          attempt = .ok (.error
            (.unreachable (.noConnection "localhost:" "invalid port value"))) := by
  intro here c
  have hnone : ∀ address port, ¬ Names "localhost:" address port := by
    intro address port hnames
    have hsplit := Source.Local.splitTarget_eq_ok_iff.mpr hnames
    have herror : Source.Local.splitTarget "localhost:" = .error "invalid port value" := rfl
    rw [herror] at hsplit
    cases hsplit
  refine ⟨rfl, fun husable => ?_, fun chance o host attempt hattempt => ?_⟩
  · obtain ⟨address, port, -, hnames⟩ := husable "localhost:" rfl
    exact hnone address port hnames
  · have hcolon : HasColon "localhost:" := List.mem_of_elem_eq_true rfl
    obtain ⟨answer, rfl, hanswer⟩ := Source.probeAnswer_of_mayAnswer hcolon hattempt
    cases hanswer with
    | connected hnames => exact absurd hnames (hnone _ _)
    | refused hnames => exact absurd hnames (hnone _ _)
    | portless => rfl

end LinkTelemetry
