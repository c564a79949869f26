import LinkTelemetry.Dashboard.Format
import LinkTelemetry.Proofs.FixedPlaces

/-!
# Amounts of bytes as they are shown

An amount is divided by `1024` until it is below that, or until the last unit,
and the number left is shown with two decimals. The divisions are exact, so
the unit is the one that the exact amount fits (`Scaled`), and the only
rounding is that of the number shown.

This rounding comes after the choice of the unit. From `1023.995` of a unit on
the number is rounded up to `1024.00`, which is shown as it is and not as
`1.00` of the next unit.
-/

namespace LinkTelemetry.Dashboard

open Binary64 (magnitude Plain plain_abs)
open Decimal (hundredths placePoint_two fixed_of_plain magnitude_of_content)

/-! ## The unit that fits -/

/-- An amount brought into the unit of `1024 ^ i` bytes, which is not larger
than the amount. -/
structure Scaled (x size : Float) (i : Nat) : Prop where
  plain : Plain size
  value : magnitude x = magnitude size * 1024 ^ i
  one_le : i ≠ 0 → 1 ≤ magnitude size

section

variable {x size : Float} {i : Nat}

theorem Scaled.refl (h : Plain x) : Scaled x x 0 :=
  ⟨h, by rw [pow_zero, mul_one], fun hne => absurd rfl hne⟩

theorem Scaled.of_div (h : Scaled (x / 1024) size i) (hx : Plain x) (hle : 1024 ≤ magnitude x) :
    Scaled x size (i + 1) := by
  obtain ⟨-, hquotient⟩ := hx.div_1024 hle
  have hvalue := h.value
  rw [hquotient, div_eq_iff (by norm_num)] at hvalue
  refine ⟨h.plain, by rw [hvalue, pow_succ, mul_assoc], fun _ => ?_⟩
  rcases Nat.eq_zero_or_pos i with rfl | hpos
  · rw [pow_zero, mul_one] at hvalue
    linarith
  · exact h.one_le hpos.ne'

/-- A size is divided until it is below `1024` or the units are used up. -/
theorem exists_scaled {units : List String} (hunits : units ≠ []) (hx : Plain x) :
    ∃ i unit size, inUnit x units = (size, unit) ∧ units[i]? = some unit ∧ Scaled x size i ∧
      (i + 1 < units.length → magnitude size < 1024) := by
  induction units generalizing x with
  | nil => exact absurd rfl hunits
  | cons unit larger ih =>
      cases larger with
      | nil => exact ⟨0, unit, x, rfl, rfl, .refl hx, fun h => absurd h (by simp)⟩
      | cons next more =>
          simp only [inUnit]
          split
          · next hle =>
              have hlarge := hx.ge_1024_iff.mp hle
              obtain ⟨i, unit', size, hsize, hunit, hscaled, hsmall⟩ :=
                ih (List.cons_ne_nil _ _) (hx.div_1024 hlarge).1
              exact ⟨i + 1, unit', size, hsize, hunit, hscaled.of_div hx hlarge,
                fun h => hsmall (Nat.lt_of_succ_lt_succ h)⟩
          · next hlt =>
              have hsmall := not_le.mp (mt hx.ge_1024_iff.mpr hlt)
              exact ⟨0, unit, x, rfl, rfl, .refl hx, fun _ => hsmall⟩

/-- The units go on to `1024 ^ 5` bytes, so below `1024 ^ 6` bytes they suffice. -/
theorem exists_unit (hfinite : x.isFinite) (hx : magnitude x < 1024 ^ 6) :
    ∃ i unit size, inUnit x.abs byteUnits = (size, unit) ∧ byteUnits[i]? = some unit ∧
      Scaled x.abs size i ∧ magnitude size < 1024 := by
  obtain ⟨hplain, habs⟩ := plain_abs hfinite
  obtain ⟨i, unit, size, hsize, hunit, hscaled, hsmall⟩ :=
    exists_scaled (show byteUnits ≠ [] by decide) hplain
  refine ⟨i, unit, size, hsize, hunit, hscaled, ?_⟩
  obtain ⟨hi, -⟩ := List.getElem?_eq_some_iff.mp hunit
  have hlength : byteUnits.length = 6 := rfl
  rcases Nat.lt_or_ge (i + 1) byteUnits.length with hlt | hge
  · exact hsmall hlt
  · obtain rfl : i = 5 := by omega
    have hvalue := hscaled.value
    rw [habs] at hvalue
    linarith

end

/-! ## The number that is shown -/

/-- All units but the first end alike. -/
theorem exists_prefix {i : Nat} {unit : String} (h : byteUnits[i]? = some unit) (hi : i ≠ 0) :
    ∃ c, unit.toList = [c, 'i', 'B'] := by
  obtain ⟨j, rfl⟩ := Nat.exists_eq_succ_of_ne_zero hi
  have hmem : unit ∈ ["KiB", "MiB", "GiB", "TiB", "PiB"] := List.mem_of_getElem? h
  simp only [List.mem_cons, List.not_mem_nil, or_false] at hmem
  rcases hmem with rfl | rfl | rfl | rfl | rfl
  all_goals simp

/-- A text shows an amount to the hundredth, in the unit of `1024 ^ i` bytes. -/
structure Shows (text : String) (i n : Nat) (amount : ℚ) : Prop where
  text_eq : ∃ unit ∈ byteUnits[i]?, text = .ofList (hundredths n) ++ unit
  one_le : i ≠ 0 → 100 ≤ n
  near : |(n / 100 : ℚ) * 1024 ^ i - amount| ≤ 1 / 2 * (1 / 100) * 1024 ^ i

/-- An amount below `1024 ^ 6` bytes is shown in the unit that it fits, and the
number is below `1024.00` or, at the upper end of the unit, that. -/
theorem bytes_shown_to_the_hundredth {x : Float} (hfinite : x.isFinite)
    (hx : magnitude x < 1024 ^ 6) :
    ∃ i n, Shows (formatBytes x) i n (magnitude x) ∧
      (i ≠ 0 → 1024 ^ i ≤ magnitude x) ∧ magnitude x < 1024 ^ (i + 1) ∧
      n ≤ 102400 ∧ (n < 102400 ↔ magnitude x < 1023.995 * 1024 ^ i) := by
  obtain ⟨i, unit, size, hsize, hunit, hscaled, hsmall⟩ := exists_unit hfinite hx
  obtain ⟨n, hnearest, htext⟩ := fixed_of_plain hscaled.plain 2
  have hvalue := hscaled.value
  rw [(plain_abs hfinite).2] at hvalue
  have hpos : (0 : ℚ) < 1024 ^ i := pow_pos (by norm_num) i
  obtain ⟨hdown, hup⟩ := abs_le.mp hnearest.near
  have hle : n ≤ 102400 := by
    have hlt : (n : ℚ) < 102400 + 1 := by linarith
    exact Nat.le_of_lt_succ (by exact_mod_cast hlt)
  have hleast : i ≠ 0 → 100 ≤ n := by
    intro hi
    have hone := hscaled.one_le hi
    have hlt : (99 : ℚ) < n := by linarith
    exact_mod_cast hlt
  have hlimit : n < 102400 ↔ magnitude size < 1023.995 := by
    have hhalf : ((102400 : Nat) : ℚ) - 1 / 2 = 1023.995 * 10 ^ 2 := by norm_num
    rw [hnearest.lt_iff_of_even (by decide), hhalf, mul_lt_mul_iff_of_pos_right (by norm_num)]
  refine ⟨i, n, ⟨⟨unit, hunit, ?_⟩, hleast, ?_⟩, ?_, ?_, hle, ?_⟩
  · rw [formatBytes, hsize, ← placePoint_two, ← htext]
  · rw [hvalue]
    exact hnearest.near_in_units hpos.le
  · intro hi
    rw [hvalue]
    exact le_mul_of_one_le_left hpos.le (hscaled.one_le hi)
  · rw [hvalue, pow_succ, mul_comm]
    exact mul_lt_mul_of_pos_left hsmall hpos
  · rw [hlimit, hvalue, mul_lt_mul_iff_of_pos_right hpos]

/-- A little below the upper end of a unit, and with a minus sign. -/
theorem bytes_shown_to_the_hundredth_of_kibibytes :
    let x : Float := -1048570
    x.isFinite ∧ magnitude x < 1024 ^ 6 ∧
      ∃ n, Shows (formatBytes x) 1 n (magnitude x) ∧ n < 102400 := by
  intro x
  have hmagnitude : magnitude x = 1048570 := by
    rw [magnitude_of_content (v := ⟨true, 1048570 * 2 ^ 33, -33⟩) (by decide +kernel)]
    norm_num
  have hfinite : x.isFinite := by decide +kernel
  have hlt : magnitude x < 1024 ^ 6 := by
    rw [hmagnitude]
    norm_num
  obtain ⟨i, n, hshows, hlow, hhigh, -, hlimit⟩ := bytes_shown_to_the_hundredth hfinite hlt
  rw [hmagnitude] at hlow hhigh hlimit
  obtain rfl : i = 1 := by
    have hne : i ≠ 0 := by
      rintro rfl
      norm_num at hhigh
    have hlt : i < 2 := by
      by_contra hge
      have hpow : (1024 : ℚ) ^ 2 ≤ 1024 ^ i := pow_le_pow_right₀ (by norm_num) (not_lt.mp hge)
      have hle := hlow hne
      norm_num at hpow
      linarith
    omega
  exact ⟨hfinite, hlt, n, hshows, hlimit.mpr (by norm_num)⟩

/-- An amount that is shown as `1024.00`, although it is below `1024` bytes. -/
theorem bytes_below_limit_shown_as_1024 :
    let x : Float := 1023.999
    x.isFinite ∧ magnitude x < 1024 ^ 6 ∧ formatBytes x = "1024.00B" ∧
      ¬ ∃ i n, Shows (formatBytes x) i n (magnitude x) ∧ n < 102400 := by
  intro x
  have hmagnitude : magnitude x = 9007190458647970 * 2 ^ (-43 : Int) :=
    magnitude_of_content (v := ⟨false, 9007190458647970, -43⟩) (by decide +kernel)
  have htext : formatBytes x = "1024.00B" := by decide +kernel
  refine ⟨by decide +kernel, by rw [hmagnitude]; norm_num, htext, ?_⟩
  rintro ⟨i, n, ⟨⟨unit, hunit, hshown⟩, -, hnear⟩, hlt⟩
  rcases Nat.eq_zero_or_pos i with rfl | hpos
  · have hn : (n : ℚ) ≤ 102399 := by exact_mod_cast Nat.le_of_lt_succ hlt
    have hup := (abs_le.mp hnear).1
    rw [hmagnitude] at hup
    norm_num at hup
    linarith
  · obtain ⟨c, hc⟩ := exists_prefix hunit hpos.ne'
    rw [htext] at hshown
    have hend := congrArg (fun text => text.toList.reverse[1]?) hshown
    simp [hc] at hend

end LinkTelemetry.Dashboard
