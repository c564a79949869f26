import LinkTelemetry.Proofs.FloatGrid
import LinkTelemetry.Proofs.FloatRange

/-!
# Floats as numbers

A finite float stands for a rational number. Where nothing has to be rounded,
the operations on floats are those on the numbers, and this file is about two
such cases. The order of floats without a minus sign is the order of their
magnitudes (`Plain.le_iff`), and a division by a power of two only moves the
exponent, as long as there is room for it (`div_two_pow`). The quotient goes
through the same rounding as any other; rounding does not change what can be
stored (`roundWithAccuracy_exact`).
-/

namespace LinkTelemetry.Binary64

open Float.Model (Format UnpackedFloat totalExponent)
open Float.Model.UnpackedFloat

/-! ## Results that need no rounding -/

theorem shiftRight_exact (m k : Nat) :
    ExtendedMantissa.ofMantissaAndAccuracy (m * 2 ^ k) .exact >>> k =
      ExtendedMantissa.ofMantissaAndAccuracy m .exact := by
  induction k generalizing m with
  | zero =>
      rw [Nat.pow_zero, Nat.mul_one]
      rfl
  | succ k ih =>
      have hdouble : m * 2 ^ (k + 1) = m * 2 * 2 ^ k := by
        rw [Nat.pow_succ, Nat.mul_assoc, Nat.mul_comm 2]
      rw [shiftRight_succ, hdouble, ih]
      simp [ExtendedMantissa.ofMantissaAndAccuracy, ExtendedMantissa.shiftRightOne]

/-- Rounding keeps what can be stored, also when it is given with more digits
than needed. -/
theorem roundWithAccuracy_exact {s : Sign} {m : Nat} {e : Int} {hm : 0 < m}
    (h : Canonical (.finite s m e hm)) (k : Nat) :
    roundWithAccuracy .binary64 s (m * 2 ^ k) (e - k) .exact = .finite s m e hm := by
  obtain ⟨hleast, hshort, hfull⟩ := h
  have hlog : m.log2 ≤ 52 := Nat.le_of_lt_succ (log2_lt_of_lt hshort (by decide))
  have hnormal : -1074 < e → 52 ≤ m.log2 := fun hlt => (Nat.le_log2 hm.ne').mpr (hfull hlt)
  have hsurplus : ∀ j : Nat, surplus (m * 2 ^ j) (e - j) = j := by
    intro j
    rw [surplus, ← Nat.shiftLeft_eq, log2_shiftLeft hm]
    omega
  have hnone : surplus m e = 0 := by
    have hzero := hsurplus 0
    rwa [Nat.pow_zero, Nat.mul_one, Nat.cast_zero, sub_zero] at hzero
  have hrounded : (ExtendedMantissa.ofMantissaAndAccuracy m .exact).roundedMantissa = m := rfl
  simp only [roundWithAccuracy_eq, hsurplus, shiftRight_exact, hrounded, sub_add_cancel, hnone,
    Nat.pow_zero, Nat.div_one, Nat.cast_zero, add_zero]
  rw [dif_neg hm.ne']

/-- A quotient by a power of two is exact if it can be stored. -/
theorem div_two_pow {s : Sign} {m : Nat} {e f : Int} {hm : 0 < m}
    (h : Canonical (.finite s m (e - f - 52) hm)) :
    div .binary64 (.finite s m e hm) (.finite .positive (2 ^ 52) f (by decide)) =
      .finite s m (e - f - 52) hm := by
  have hlog : m.log2 ≤ 52 := Nat.le_of_lt_succ (log2_lt_of_lt h.2.1 (by decide))
  obtain ⟨g, hg⟩ : ∃ g, g = quotientExponent m (2 ^ 52) e f := ⟨_, rfl⟩
  obtain ⟨k, hk⟩ : ∃ k : Nat, (k : Int) = e - f - 52 - g := by
    rw [quotientExponent, Nat.log2_two_pow] at hg
    have hleast := h.1
    exact ⟨(e - f - 52 - g).toNat, by omega⟩
  have hshift : m <<< (e - f - g).toNat = m * 2 ^ k * 2 ^ 52 := by
    have hsum : (e - f - g).toNat = k + 52 := by omega
    rw [hsum, Nat.shiftLeft_eq, Nat.pow_add, Nat.mul_assoc]
  have hsign : s / .positive = s := by cases s <;> rfl
  have hexact : accuracyOfFraction 0 (2 ^ 52) = .exact := rfl
  have hexponent : g = e - f - 52 - k := by omega
  rw [div_eq hm (by decide)]
  simp only [← hg, hshift, Nat.mul_div_cancel _ (Nat.two_pow_pos 52), Nat.mul_mod_left, hsign,
    hexact]
  rw [hexponent, roundWithAccuracy_exact h]

/-! ## Magnitudes -/

/-- The number that a finite float stands for, without its sign. -/
def magnitude (x : Float) : ℚ :=
  match parts x with
  | .finite _ m e _ => m * 2 ^ e
  | _ => 0

/-- A finite float without a minus sign. -/
structure Plain (x : Float) : Prop where
  finite : x.isFinite
  positive : sign? (parts x) = some .positive

theorem mul_two_zpow {m : Nat} {e g : Int} (h : g ≤ e) :
    (m : ℚ) * 2 ^ e = (decreaseExponent m e g).1 * 2 ^ g := by
  obtain ⟨k, rfl⟩ : ∃ k : Nat, e = g + k := ⟨(e - g).toNat, by omega⟩
  have hshift : (g + k - g).toNat = k := by omega
  rw [decreaseExponent, hshift, Nat.shiftLeft_eq, zpow_add₀ two_ne_zero, zpow_natCast]
  push_cast
  ring

/-- In canonical form the exponents and then the mantissas decide which of two
numbers is the larger one. -/
theorem then_compare_eq_lt_iff {m n : Nat} {e f : Int} {hm : 0 < m} {hn : 0 < n}
    (ha : Canonical (.finite .positive m e hm)) (hb : Canonical (.finite .positive n f hn)) :
    (compare e f).then (compare m n) = .lt ↔ (m : ℚ) * 2 ^ e < n * 2 ^ f := by
  have hpos : (0 : ℚ) < 2 ^ min e f := zpow_pos two_pos _
  rw [mul_two_zpow (Int.min_le_left e f), mul_two_zpow (Int.min_le_right e f),
    mul_lt_mul_iff_of_pos_right hpos, Nat.cast_lt]
  constructor
  · exact decreased_lt_of_compare_eq_lt ha.2.1 fun h => hb.2.2 (Int.lt_of_le_of_lt ha.1 h)
  · intro hlt
    by_contra h
    have hle := decreased_le_of_compare_ne_lt hb.2.1
      (fun hfe => ha.2.2 (Int.lt_of_le_of_lt hb.1 hfe)) h
    exact absurd hlt (Nat.not_lt.mpr hle)

section

variable {x y : Float}

theorem magnitude_of_finite {s : Sign} {m : Nat} {e : Int} {hm : 0 < m}
    (h : parts x = .finite s m e hm) : magnitude x = m * 2 ^ e := by
  rw [magnitude, h]

theorem plain_of_zero (h : parts x = .zero .positive) : Plain x ∧ magnitude x = 0 := by
  have hfinite : (parts x).isFinite := by
    rw [h]
    rfl
  exact ⟨⟨hfinite, by rw [h]; rfl⟩, by rw [magnitude, h]⟩

theorem plain_of_finite {m : Nat} {e : Int} {hm : 0 < m}
    (h : parts x = .finite .positive m e hm) : Plain x ∧ magnitude x = m * 2 ^ e := by
  have hfinite : (parts x).isFinite := by
    rw [h]
    rfl
  exact ⟨⟨hfinite, by rw [h]; rfl⟩, magnitude_of_finite h⟩

theorem Plain.cases (h : Plain x) :
    parts x = .zero .positive ∨ ∃ m e hm, parts x = .finite .positive m e hm := by
  have hfinite : (parts x).isFinite := h.finite
  have hsign := h.positive
  generalize parts x = u at hfinite hsign
  cases u with
  | notANumber => cases hfinite
  | infinity s => cases hfinite
  | zero s =>
      cases hsign
      exact .inl rfl
  | finite s m e hm =>
      cases hsign
      exact .inr ⟨m, e, hm, rfl⟩

theorem Plain.lt_iff (hx : Plain x) (hy : Plain y) : x < y ↔ magnitude x < magnitude y := by
  have hcx := canonical_parts x
  have hcy := canonical_parts y
  rw [Binary64.lt_iff, magnitude, magnitude]
  rcases hx.cases with hzero | ⟨m, e, hm, hfinite⟩
  · rcases hy.cases with hzero' | ⟨n, f, hn, hfinite'⟩
    · simp [hzero, hzero', UnpackedFloat.compare]
    · have hpos : (0 : ℚ) < n * 2 ^ f := mul_pos (Nat.cast_pos.mpr hn) (zpow_pos two_pos _)
      simp [hzero, hfinite', UnpackedFloat.compare, hpos]
  · rw [hfinite] at hcx
    rcases hy.cases with hzero' | ⟨n, f, hn, hfinite'⟩
    · have hpos : (0 : ℚ) < m * 2 ^ e := mul_pos (Nat.cast_pos.mpr hm) (zpow_pos two_pos _)
      simp [hfinite, hzero', UnpackedFloat.compare, hpos.le]
    · rw [hfinite'] at hcy
      rw [hfinite, hfinite']
      exact Option.some_inj.trans (then_compare_eq_lt_iff hcx hcy)

theorem Plain.le_iff (hx : Plain x) (hy : Plain y) : x ≤ y ↔ magnitude x ≤ magnitude y := by
  rw [le_iff_of_not_isNaN (not_isNaN_of_isFinite hy.finite) (not_isNaN_of_isFinite hx.finite),
    hy.lt_iff hx, not_lt]

/-! ## Absolute values, and quotients by `1024` -/

theorem parts_abs (x : Float) :
    parts x.abs = unpack .binary64 (pack .binary64 (parts x).abs) := rfl

theorem plain_abs (h : x.isFinite) : Plain x.abs ∧ magnitude x.abs = magnitude x := by
  have hbelow := below_parts h
  have hcanonical := canonical_parts x
  have hzero : unpack .binary64 (pack .binary64 (.zero .positive)) = .zero .positive := rfl
  cases hx : parts x with
  | notANumber =>
      rw [hx] at hbelow
      cases hbelow
  | infinity s =>
      rw [hx] at hbelow
      cases hbelow
  | zero s =>
      have habs : parts x.abs = .zero .positive := by
        rw [parts_abs, hx, UnpackedFloat.abs, hzero]
      have hmagnitude : magnitude x = 0 := by rw [magnitude, hx]
      rw [hmagnitude]
      exact plain_of_zero habs
  | finite s m e hm =>
      rw [hx] at hbelow hcanonical
      cases hbelow with
      | finite he =>
          have habs : parts x.abs = .finite .positive m e hm := by
            rw [parts_abs, hx, UnpackedFloat.abs]
            exact unpack_pack_of_le hcanonical he
          rw [magnitude_of_finite hx]
          exact plain_of_finite habs

theorem parts_1024 : parts 1024 = .finite .positive (2 ^ 52) (-42) (by decide) := rfl

theorem plain_1024 : Plain 1024 ∧ magnitude 1024 = 1024 := by
  obtain ⟨hplain, hmagnitude⟩ := plain_of_finite parts_1024
  exact ⟨hplain, by rw [hmagnitude]; norm_num⟩

theorem Plain.ge_1024_iff (h : Plain x) : 1024 ≤ x ↔ 1024 ≤ magnitude x := by
  rw [plain_1024.1.le_iff h, plain_1024.2]

/-- From `1024` on there is room in the exponent to divide by it. -/
theorem Plain.div_1024 (h : Plain x) (hx : 1024 ≤ magnitude x) :
    Plain (x / 1024) ∧ magnitude (x / 1024) = magnitude x / 1024 := by
  rcases h.cases with hzero | ⟨m, e, hm, hfinite⟩
  · rw [(plain_of_zero hzero).2] at hx
    exact absurd hx (by norm_num)
  · obtain ⟨hleast, hshort, hfull⟩ : Canonical (.finite .positive m e hm) :=
      hfinite ▸ canonical_parts x
    rw [magnitude_of_finite hfinite] at hx
    have he : -42 ≤ e := by
      by_contra hlt
      have hm' : (m : ℚ) < 2 ^ 53 := by exact_mod_cast hshort
      have hpow : (2 : ℚ) ^ e ≤ 2 ^ (-43 : Int) := zpow_le_zpow_right₀ one_le_two (by omega)
      have hprod : (m : ℚ) * 2 ^ e < 2 ^ 53 * 2 ^ (-43 : Int) :=
        mul_lt_mul hm' hpow (zpow_pos two_pos _) (by norm_num)
      norm_num at hprod
      exact absurd hx (not_le.mpr hprod)
    have hcanonical : Canonical (.finite .positive m (e - -42 - 52) hm) :=
      ⟨by omega, hshort, fun _ => hfull (by omega)⟩
    have hbelow := below_parts h.finite
    rw [hfinite] at hbelow
    have hquotient : parts (x / 1024) = .finite .positive m (e - -42 - 52) hm := by
      rw [parts_div, parts_1024, hfinite, div_two_pow hcanonical]
      cases hbelow with
      | finite hle => exact unpack_pack_of_le hcanonical (by omega)
    have hvalue : (m : ℚ) * 2 ^ (e - -42 - 52) = m * 2 ^ e / 1024 := by
      have hten : (2 : ℚ) ^ (10 : Int) = 1024 := by norm_num
      have hexponent : e - -42 - 52 = e - 10 := by omega
      rw [hexponent, zpow_sub₀ two_ne_zero, hten, mul_div_assoc]
    rw [magnitude_of_finite hfinite, ← hvalue]
    exact plain_of_finite hquotient

end

end LinkTelemetry.Binary64
