import LinkTelemetry.Source.Local
import Mathlib.Logic.Basic

/-!
# The load since the last good reading

The load of the processor is a share of the time between two readings, and the
source keeps the first of the two from one sample to the next. Only samples of
this metric replace what it keeps, and of those only the good ones: when the
table is missing, is no text or cannot be read as one, the last good reading
stays in its place, and the next load is measured from there. The same holds of a
reading that stops the program.

`snd_sample` says what a sample of any metric leaves behind, and
`source_after` what a whole session does.
-/

namespace LinkTelemetry.Source.Local

/-- What happens while a source is in use. -/
inductive Step where
  /-- Files of the host are written or removed. -/
  | changed (host : Host)
  | sampled (m : Metric)

/-- A source and the host that it samples. -/
structure Session where
  host : Host
  source : Local

namespace Session

def step (o : Overflow) (session : Session) : Step → Session
  | .changed host => { session with host }
  | .sampled m => { session with source := (session.source.sample o session.host m).2 }

/-- The session after some steps. -/
def after (o : Overflow) (session : Session) (steps : List Step) : Session :=
  steps.foldl (step o) session

end Session

/-- The reading that a sample takes, if it takes one and the reading is good. -/
def reading? (source : Local) (o : Overflow) (host : Host) (m : Metric) :
    Option Procfs.CpuTimes :=
  if m = .cpuPercent then (source.cpuTimes o host).toOption.bind Except.toOption else none

/-- The good readings of a list of steps, in order. -/
def readings (source : Local) (o : Overflow) : Host → List Step → List Procfs.CpuTimes
  | _, [] => []
  | _, .changed host :: rest => readings source o host rest
  | host, .sampled m :: rest => (source.reading? o host m).toList ++ readings source o host rest

section

variable {source other : Local} (h : source.root = other.root)
include h

/-- Readings are taken from the host and from nothing that was kept. -/
theorem cpuTimes_congr (o : Overflow) (host : Host) :
    source.cpuTimes o host = other.cpuTimes o host := by
  rw [cpuTimes, cpuTimes, table, table, h]

theorem reading?_congr (o : Overflow) (host : Host) (m : Metric) :
    source.reading? o host m = other.reading? o host m := by
  rw [reading?, reading?, cpuTimes_congr h]

end

variable (source : Local) (o : Overflow) (host : Host)

theorem fst_sample_cpuPercent : (source.sample o host .cpuPercent).1 =
    (source.cpuTimes o host).map fun reading => reading.map fun now =>
      .float (Procfs.cpuPercent (source.lastCpu.getD ⟨0, 0⟩) now) := by
  rw [sample, cpu]
  rcases source.cpuTimes o host with panic | cause | now <;> rfl

/-- A sample puts its good reading, if it has one, in the place of the last. -/
theorem snd_sample (m : Metric) : (source.sample o host m).2 =
    { source with lastCpu := (source.reading? o host m).or source.lastCpu } := by
  cases m with
  | cpuPercent =>
      rw [sample, cpu, reading?, if_pos rfl]
      rcases source.cpuTimes o host with panic | cause | now <;> rfl
  | _ => rfl

theorem snd_sample_of_reading?_eq_none {m : Metric} (h : source.reading? o host m = none) :
    (source.sample o host m).2 = source := by
  rw [snd_sample, h, Option.none_or]

/-- After any steps a source keeps the last good reading of them. -/
theorem source_after (start : Session) (hroot : start.source.root = source.root)
    (steps : List Step) : (start.after o steps).source =
      { start.source with
        lastCpu := (readings source o start.host steps).getLast?.or start.source.lastCpu } := by
  induction steps generalizing start with
  | nil => rfl
  | cons step rest ih =>
      have hafter : start.after o (step :: rest) = (start.step o step).after o rest := rfl
      rw [hafter]
      cases step with
      | changed host => exact ih _ hroot
      | sampled m =>
          have hsource : (start.step o (.sampled m)).source = { start.source with
              lastCpu := (source.reading? o start.host m).or start.source.lastCpu } := by
            rw [← reading?_congr hroot]
            exact snd_sample ..
          have hhost : (start.step o (.sampled m)).host = start.host := rfl
          rw [ih _ (by rw [hsource, hroot]), hsource, hhost, readings, List.getLast?_append,
            Option.or_assoc]
          cases source.reading? o start.host m <;> rfl

/-- Whatever happened to a source and to its host, a load is measured from the
last good reading of that past, and from zero if there is none. Samples without
a value and those of other metrics do not change the source. -/
theorem load_since_last_reading (o : Overflow) (root : String) (port : Option UInt16)
    (probe : Option String) (interfaces : List String) (host : Host) (past : List Step) :
    let fresh : Local := { root, port, probe, interfaces }
    let now := Session.after o ⟨host, fresh⟩ past
    let last := (readings fresh o host past).getLast?
    now.source.lastCpu = last ∧
    (∀ v, (now.source.sample o now.host .cpuPercent).1 = .ok (.ok v) ↔
      ∃ current, fresh.cpuTimes o now.host = .ok (.ok current) ∧
        v = .float (Procfs.cpuPercent (last.getD ⟨0, 0⟩) current)) ∧
    (∀ m, m ≠ .cpuPercent ∨ (∀ v, (now.source.sample o now.host m).1 ≠ .ok (.ok v)) →
      (now.source.sample o now.host m).2 = now.source) := by
  intro fresh now last
  have hsource : now.source = { fresh with lastCpu := last.or none } :=
    source_after fresh o ⟨host, fresh⟩ rfl past
  have hroot : now.source.root = fresh.root := by rw [hsource]
  have hlast : now.source.lastCpu = last := by rw [hsource, Option.or_none]
  have hsample : (now.source.sample o now.host .cpuPercent).1 =
      (fresh.cpuTimes o now.host).map fun reading => reading.map fun current =>
        .float (Procfs.cpuPercent (last.getD ⟨0, 0⟩) current) := by
    rw [fst_sample_cpuPercent, hlast, cpuTimes_congr hroot]
  refine ⟨hlast, ?_, ?_⟩
  · intro v
    rw [hsample]
    rcases fresh.cpuTimes o now.host with panic | cause | current
    · simp [Except.map]
    · simp [Except.map]
    · simp [Except.map, eq_comm]
  · intro m hm
    refine snd_sample_of_reading?_eq_none _ _ _ ?_
    rw [reading?_congr hroot, reading?]
    split
    · next hcpu =>
        have hfailed := hm.resolve_left (not_not.mpr hcpu)
        rw [hcpu, hsample] at hfailed
        rcases hread : fresh.cpuTimes o now.host with panic | cause | current
        · rfl
        · rfl
        · rw [hread] at hfailed
          exact absurd rfl (hfailed _)
    · rfl

/-- A good reading, and then a malformed table, a missing one and a sample of
the memory. The next load is measured from the first reading. -/
theorem load_since_last_reading_past_failures :
    let proc (tables : List (String × String)) : Host := { Host.bare with
      read := fun path => match tables.lookup path with
        | some text => .ok (Text.toBytes text)
        | none => .error .notFound }
    let fresh : Local := {}
    let past : List Step := [.sampled .cpuPercent, .changed (proc [("/proc/stat", "cpu x")]),
      .sampled .cpuPercent, .changed (proc [("/proc/meminfo", "MemTotal: 8 kB\nMemFree: 2 kB")]),
      .sampled .cpuPercent, .sampled .memoryPercent,
      .changed (proc [("/proc/stat", "cpu 20 0 10 130")])]
    let now := Session.after .stops ⟨proc [("/proc/stat", "cpu 10 0 10 80")], fresh⟩ past
    (now.source.sample .stops now.host .cpuPercent).1 =
        .ok (.ok (.float (Procfs.cpuPercent ⟨20, 100⟩ ⟨30, 160⟩))) ∧
      (now.source.sample .stops now.host .memoryPercent).2 = now.source := by
  intro proc fresh past now
  obtain ⟨-, hload, hother⟩ := load_since_last_reading .stops "/proc" none none []
    (proc [("/proc/stat", "cpu 10 0 10 80")]) past
  refine ⟨(hload _).mpr ⟨⟨30, 160⟩, rfl, ?_⟩, hother _ (.inl (by decide))⟩
  have hlast : (readings fresh .stops (proc [("/proc/stat", "cpu 10 0 10 80")]) past).getLast? =
      some ⟨20, 100⟩ := by decide +kernel
  exact congrArg (fun last : Option Procfs.CpuTimes =>
    Measurement.float (Procfs.cpuPercent (last.getD ⟨0, 0⟩) ⟨30, 160⟩)) hlast.symm

end LinkTelemetry.Source.Local
