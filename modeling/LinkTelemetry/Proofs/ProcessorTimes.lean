import LinkTelemetry.Proofs.Framing
import LinkTelemetry.Proofs.Outcomes
import LinkTelemetry.Source.Procfs
import Mathlib

/-!
# Processor times and the size of a word

The times of a processor are sums of up to eight numbers of one line, each a
word of 64 bits, and the sums are words again. As long as all eight together
fit a word nothing is lost: the total is the sum, the busy part is the sum
less the two idle numbers, and the subtraction is one of numbers that are in
it. A line whose numbers are larger than that is not refused, although every
number of it is legible. A build that checks its arithmetic stops there, and
one that does not goes on with the times modulo `2 ^ 64`.

The numbers are added one by one, but a word gets too small at some point of a
sum exactly if it is too small for the whole (`Overflow.foldlM_add`).
`parseCpuTimes_eq_map_iff` says which texts have times, and `Sums` what the
times are to the numbers.
-/

namespace LinkTelemetry

namespace Overflow

theorem fits_stops (n : Nat) : stops.Fits n ↔ n < 2 ^ 64 := ⟨fun h => h rfl, fun h _ => h⟩

theorem Fits.mono {o : Overflow} {m n : Nat} (h : o.Fits n) (hmn : m ≤ n) : o.Fits m :=
  fun ho => Nat.lt_of_le_of_lt hmn (h ho)

theorem foldlM_add (o : Overflow) (numbers : List UInt64) (start : UInt64) :
    numbers.foldlM o.add start =
      if o.Fits (start.toNat + (numbers.map UInt64.toNat).sum) then
        .ok (numbers.foldl (· + ·) start)
      else .error .additionOverflow := by
  induction numbers generalizing start with
  | nil => exact (if_pos fun _ => start.toNat_lt).symm
  | cons n rest ih =>
      have hsum : start.toNat + ((n :: rest).map UInt64.toNat).sum =
          start.toNat + n.toNat + (rest.map UInt64.toNat).sum := by
        rw [List.map_cons, List.sum_cons, Nat.add_assoc]
      rw [List.foldlM_cons, add, hsum]
      by_cases hfirst : o.Fits (start.toNat + n.toNat)
      · rw [if_pos hfirst, ok_bind, ih, List.foldl_cons]
        cases o with
        | wraps => rw [if_pos nofun, if_pos nofun]
        | stops =>
            rw [fits_stops] at hfirst
            rw [UInt64.toNat_add, Nat.mod_eq_of_lt hfirst]
      · rw [if_neg hfirst, if_neg fun h => hfirst (h.mono (Nat.le_add_right ..))]
        rfl

end Overflow

namespace Source.Procfs

theorem toNat_total (counters : List UInt64) :
    (total counters).toNat = (counters.map UInt64.toNat).sum % 2 ^ 64 := by
  have hfrom : ∀ start : UInt64, (counters.foldl (· + ·) start).toNat =
      (start.toNat + (counters.map UInt64.toNat).sum) % 2 ^ 64 := by
    induction counters with
    | nil =>
        intro start
        exact (Nat.mod_eq_of_lt start.toNat_lt).symm
    | cons n rest ih =>
        intro start
        rw [List.foldl_cons, ih, UInt64.toNat_add, Nat.mod_add_mod, List.map_cons, List.sum_cons,
          Nat.add_assoc]
  rw [total, hfrom]
  exact congrArg (· % 2 ^ 64) (Nat.zero_add _)

theorem toNat_saturatingSub (a b : UInt64) : (saturatingSub a b).toNat = a.toNat - b.toNat := by
  rw [saturatingSub]
  split
  · next hle => exact UInt64.toNat_sub_of_le _ _ hle
  · next hlt =>
      rw [UInt64.le_iff_toNat_le] at hlt
      exact (Nat.sub_eq_zero_of_le (by omega)).symm

/-- The numbers of a text about all processors together: those behind the
label of the first line that has the label. -/
def HasCpuFields (text : List Char) (fields : List UInt64) : Prop :=
  ∃ before line after, Text.lines text = before ++ line :: after ∧
    (∀ other ∈ before, ¬ "cpu ".toList <+: other) ∧ "cpu ".toList <+: line ∧
    List.Forall₂ (fun word n => Numeral.readUInt64? word = some n) ((Text.words line).drop 1) fields

/-- All the time in the numbers of a line. -/
def ticks (fields : List UInt64) : Nat := ((fields.take 8).map UInt64.toNat).sum

/-- The idle time in the numbers of a line. -/
def idleTicks (fields : List UInt64) : Nat :=
  (fields[3]?.getD 0).toNat + (fields[4]?.getD 0).toNat

theorem idleTicks_le_ticks (fields : List UInt64) : idleTicks fields ≤ ticks fields := by
  match fields with
  | [] | [_] | [_, _] | [_, _, _] => simp [idleTicks]
  | [_, _, _, _] | _ :: _ :: _ :: _ :: _ :: _ =>
      simp [idleTicks, ticks]
      omega

/-- What times are to the numbers that they come from. -/
structure Sums (fields : List UInt64) (times : CpuTimes) : Prop where
  total_eq : times.total.toNat = ticks fields % 2 ^ 64
  busy_eq : times.busy.toNat = ticks fields % 2 ^ 64 - idleTicks fields % 2 ^ 64
  busy_le_total : times.busy ≤ times.total
  /-- Times that fit are exact. -/
  exact_of_lt : ticks fields < 2 ^ 64 →
    times.total.toNat = ticks fields ∧ times.busy.toNat + idleTicks fields = ticks fields

theorem sumTimes_eq (o : Overflow) {fields : List UInt64} {idle : UInt64}
    (hidle : fields[3]? = some idle) :
    sumTimes o fields idle =
      if o.Fits (ticks fields) then
        .ok ⟨saturatingSub (total (fields.take 8)) (idle + fields[4]?.getD 0),
          total (fields.take 8)⟩
      else .error .additionOverflow := by
  have hsum : o.sum (fields.take 8) =
      if o.Fits (ticks fields) then .ok (total (fields.take 8)) else .error .additionOverflow := by
    have h := o.foldlM_add (fields.take 8) 0
    rwa [UInt64.toNat_zero, Nat.zero_add] at h
  rw [sumTimes, hsum]
  by_cases hfits : o.Fits (ticks fields)
  · have hidle' : o.Fits (idle.toNat + (fields[4]?.getD 0).toNat) := by
      have hle := idleTicks_le_ticks fields
      rw [idleTicks, hidle] at hle
      exact hfits.mono hle
    rw [if_pos hfits, if_pos hfits, ok_bind, Overflow.add, if_pos hidle']
    rfl
  · rw [if_neg hfits, if_neg hfits]
    rfl

theorem map_ok_inj {x y : Except Panic CpuTimes} :
    x.map (Except.ok (ε := SourceError)) = y.map .ok ↔ x = y := by
  cases x <;> cases y <;> simp [Except.map]

/-- A text has times, or stops the program, exactly by its line about all
processors. -/
theorem parseCpuTimes_eq_map_iff (o : Overflow) (text : List Char) (x : Except Panic CpuTimes) :
    parseCpuTimes o text = x.map .ok ↔ ∃ fields idle, HasCpuFields text fields ∧
      fields[3]? = some idle ∧ sumTimes o fields idle = x := by
  have hfind : ∀ line, (Text.lines text).find?
      (fun line => (Text.dropHead? "cpu ".toList line).isSome) = some line ↔
      ∃ before after, Text.lines text = before ++ line :: after ∧
        (∀ other ∈ before, ¬ "cpu ".toList <+: other) ∧ "cpu ".toList <+: line := by
    intro line
    simp only [List.find?_eq_some_iff_append, Text.isSome_dropHead?_iff, Bool.not_eq_true',
      ← Bool.not_eq_true]
    constructor
    · rintro ⟨hline, before, after, hlines, hbefore⟩
      exact ⟨before, after, hlines, hbefore, hline⟩
    · rintro ⟨before, after, hlines, hbefore, hline⟩
      exact ⟨hline, before, after, hlines, hbefore⟩
  have hrefused : ∀ cause, (.ok (.error cause) : Except Panic (Except SourceError CpuTimes)) ≠
      x.map .ok := by
    intro cause
    cases x <;> nofun
  constructor
  · intro h
    rw [parseCpuTimes] at h
    split at h
    · exact absurd h (hrefused _)
    · next line hline =>
        split at h
        · exact absurd h (hrefused _)
        · next fields hfields =>
            split at h
            · exact absurd h (hrefused _)
            · next idle hidle =>
                obtain ⟨before, after, hlines, hbefore, hlabel⟩ := (hfind line).mp hline
                exact ⟨fields, idle, ⟨before, line, after, hlines, hbefore, hlabel,
                  mapM_eq_some.mp hfields⟩, hidle, map_ok_inj.mp h⟩
  · rintro ⟨fields, idle, ⟨before, line, after, hlines, hbefore, hlabel, hfields⟩, hidle, rfl⟩
    have hline := (hfind line).mpr ⟨before, after, hlines, hbefore, hlabel⟩
    simp only [parseCpuTimes, hline, mapM_eq_some.mpr hfields, hidle]

/-- The times of a line are sums of its numbers. -/
theorem sums_of_fields {fields : List UInt64} {idle : UInt64} (hidle : fields[3]? = some idle) :
    Sums fields ⟨saturatingSub (total (fields.take 8)) (idle + fields[4]?.getD 0),
      total (fields.take 8)⟩ := by
  have htotal : (total (fields.take 8)).toNat = ticks fields % 2 ^ 64 := toNat_total _
  have hidle' : (idle + fields[4]?.getD 0).toNat = idleTicks fields % 2 ^ 64 := by
    rw [UInt64.toNat_add, idleTicks, hidle, Option.getD_some]
  have hbusy := toNat_saturatingSub (total (fields.take 8)) (idle + fields[4]?.getD 0)
  rw [htotal, hidle'] at hbusy
  have hle := idleTicks_le_ticks fields
  exact {
    total_eq := htotal
    busy_eq := hbusy
    busy_le_total := by
      rw [UInt64.le_iff_toNat_le, hbusy, htotal]
      exact Nat.sub_le _ _
    exact_of_lt := by
      intro hlt
      rw [hbusy, htotal, Nat.mod_eq_of_lt hlt, Nat.mod_eq_of_lt (Nat.lt_of_le_of_lt hle hlt)]
      exact ⟨rfl, Nat.sub_add_cancel hle⟩ }

/-- A text stops the program only where additions are checked. -/
theorem stops_of_parseCpuTimes {o : Overflow} {text : List Char} {panic : Panic}
    (h : parseCpuTimes o text = .error panic) : o = .stops ∧ panic = .additionOverflow := by
  obtain ⟨fields, idle, -, hidle, hpanic⟩ :=
    (parseCpuTimes_eq_map_iff o text (.error panic)).mp h
  rw [sumTimes_eq o hidle] at hpanic
  split at hpanic
  · cases hpanic
  · next hlarge =>
      cases hpanic
      cases o with
      | wraps => exact absurd nofun hlarge
      | stops => exact ⟨rfl, rfl⟩

/-- A line about all processors with four numbers or more, whatever they are,
has times, and these are the sums of the numbers, unless the build stops at a
sum that does not fit. No other text has times or stops the program. -/
theorem cpu_times_are_sums (o : Overflow) (text : List Char) :
    (∀ times, parseCpuTimes o text = .ok (.ok times) ↔
      ∃ fields, HasCpuFields text fields ∧ 4 ≤ fields.length ∧ o.Fits (ticks fields) ∧
        Sums fields times) ∧
    ∀ panic, parseCpuTimes o text = .error panic ↔
      panic = .additionOverflow ∧
        ∃ fields, HasCpuFields text fields ∧ 4 ≤ fields.length ∧ ¬ o.Fits (ticks fields) := by
  constructor
  · intro times
    refine (parseCpuTimes_eq_map_iff o text (.ok times)).trans ⟨?_, ?_⟩
    · rintro ⟨fields, idle, hfields, hidle, htimes⟩
      obtain ⟨hlength, -⟩ := List.getElem?_eq_some_iff.mp hidle
      rw [sumTimes_eq o hidle] at htimes
      split at htimes
      · next hfits =>
          cases htimes
          exact ⟨fields, hfields, hlength, hfits, sums_of_fields hidle⟩
      · cases htimes
    · rintro ⟨fields, hfields, hlength, hfits, hsums⟩
      have hidle : fields[3]? = some fields[3] := List.getElem?_eq_getElem hlength
      have hsums' := sums_of_fields hidle
      refine ⟨fields, _, hfields, hidle, ?_⟩
      rw [sumTimes_eq o hidle, if_pos hfits]
      have hword : ∀ {a b : UInt64} {n : Nat}, a.toNat = n → b.toNat = n → a = b :=
        fun ha hb => UInt64.toNat_inj.mp (ha.trans hb.symm)
      cases times
      exact congrArg Except.ok (congrArg₂ CpuTimes.mk (hword hsums'.busy_eq hsums.busy_eq)
        (hword hsums'.total_eq hsums.total_eq))
  · intro panic
    refine (parseCpuTimes_eq_map_iff o text (.error panic)).trans ⟨?_, ?_⟩
    · rintro ⟨fields, idle, hfields, hidle, hpanic⟩
      obtain ⟨hlength, -⟩ := List.getElem?_eq_some_iff.mp hidle
      rw [sumTimes_eq o hidle] at hpanic
      split at hpanic
      · cases hpanic
      · next hlarge =>
          cases hpanic
          exact ⟨rfl, fields, hfields, hlength, hlarge⟩
    · rintro ⟨rfl, fields, hfields, hlength, hlarge⟩
      have hidle : fields[3]? = some fields[3] := List.getElem?_eq_getElem hlength
      refine ⟨fields, _, hfields, hidle, ?_⟩
      rw [sumTimes_eq o hidle, if_neg hlarge]

/-- A line of a kernel with five numbers, and an older line behind it. -/
theorem cpu_times_are_sums_of_five :
    ∃ fields, HasCpuFields "cpu  10 2 3 80 5\ncpu 1 1 1 1".toList fields ∧
      4 ≤ fields.length ∧ Overflow.stops.Fits (ticks fields) ∧ Sums fields ⟨15, 100⟩ :=
  ((cpu_times_are_sums .stops _).1 _).mp (by decide +kernel)

/-- One tick too many for a word. The numbers are legible and their sum is
`2 ^ 64`. The text is not refused: the program stops, or the times are zero. -/
theorem cpu_times_of_full_word :
    let text := "cpu 18446744073709551615 1 0 0".toList
    parseCpuTimes .stops text = .error .additionOverflow ∧
      parseCpuTimes .wraps text = .ok (.ok ⟨0, 0⟩) ∧
      ∃ fields, HasCpuFields text fields ∧ ticks fields = 2 ^ 64 ∧ idleTicks fields = 0 := by
  refine ⟨by decide +kernel, by decide +kernel, [18446744073709551615, 1, 0, 0], ?_, by decide,
    by decide⟩
  refine ⟨[], _, [], rfl, by simp, by decide +kernel, ?_⟩
  exact mapM_eq_some.mp (by decide +kernel)

end Source.Procfs

end LinkTelemetry
