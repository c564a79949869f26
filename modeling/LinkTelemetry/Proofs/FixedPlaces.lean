import LinkTelemetry.Decimal.Fixed
import LinkTelemetry.Proofs.FloatMagnitude

/-!
# Numbers with a fixed number of places

A number is written from the bits of its float (`Content.ofBits`). What the
bits say is what the float stands for as a number (`content_eq`), which
`FloatMagnitude` compares and divides. The number is rounded once, on its
exact value, to the nearest multiple of the last place; of two that are as
near it is the even one (`Nearest`). Which numbers are rounded up to a bound
then follows from the order of numbers (`Nearest.lt_iff_of_even`).
-/

namespace LinkTelemetry

namespace Decimal

open Float.Model (Format UnpackedFloat)
open Float.Model.UnpackedFloat
open Binary64 (parts toNat_implicit magnitude Plain plain_of_zero plain_of_finite)

/-! ## What the bits say -/

def isNegative : Sign → Bool
  | .negative => true
  | .positive => false

/-- The content of a float that has been taken apart. -/
def Content.ofParts : UnpackedFloat → Content
  | .notANumber => .nan
  | .infinity s => .infinite (isNegative s)
  | .zero s => .finite ⟨isNegative s, 0, -1074⟩
  | .finite s m e _ => .finite ⟨isNegative s, m, e⟩

theorem toNat_mantissa (b : BitVec 64) :
    (@unpackMantissa .binary64 b).toNat = b.toNat % leastNormal := by
  rw [unpackMantissa, BitVec.toNat_cast, BitVec.extractLsb_toNat]
  rfl

theorem toNat_exponent (b : BitVec 64) :
    (@unpackExponent .binary64 b).toNat = b.toNat / leastNormal % 2048 := by
  rw [unpackExponent, BitVec.toNat_cast, BitVec.extractLsb_toNat, Nat.shiftRight_eq_div_pow]
  rfl

theorem toNat_sign (b : BitVec 64) :
    (@unpackSign .binary64 b).toNat = b.toNat / leastNormal / 2048 % 2 := by
  rw [unpackSign, BitVec.toNat_cast, BitVec.extractLsb_toNat, Nat.shiftRight_eq_div_pow,
    Nat.div_div_eq_div_mul]
  rfl

theorem isNegative_ofBitVec (b : BitVec 1) : isNegative (Sign.ofBitVec b) = (b.toNat == 1) := by
  decide +revert

theorem ofBits_toNat (b : BitVec 64) : Content.ofBits b.toNat = .ofParts (unpack .binary64 b) := by
  have hbias : Format.binary64.exponentBias = 1023 := rfl
  have hnegative : (b.toNat / leastNormal / 2048 % 2 == 1) =
      isNegative (Sign.ofBitVec (@unpackSign .binary64 b)) := by
    rw [isNegative_ofBitVec, toNat_sign]
  have hlargest : b.toNat / leastNormal % 2048 = 2047 ↔ @unpackExponent .binary64 b = -1#11 := by
    rw [← BitVec.toNat_inj, toNat_exponent]
    rfl
  have hleast : b.toNat / leastNormal % 2048 = 0 ↔ @unpackExponent .binary64 b = 0#11 := by
    rw [← BitVec.toNat_inj, toNat_exponent]
    rfl
  have hempty : b.toNat % leastNormal = 0 ↔ @unpackMantissa .binary64 b = 0#52 := by
    rw [← BitVec.toNat_inj, toNat_mantissa]
    rfl
  simp only [Content.ofBits, hnegative, hlargest, hleast, hempty, unpack]
  by_cases htop : @unpackExponent .binary64 b = -1#11
  · rw [if_pos htop, if_pos htop]
    by_cases hzero : @unpackMantissa .binary64 b = 0#52
    · rw [if_pos hzero, if_pos hzero, Content.ofParts]
    · rw [if_neg hzero, if_neg hzero, Content.ofParts]
  · rw [if_neg htop, if_neg htop]
    by_cases hbottom : @unpackExponent .binary64 b = 0#11
    · have hexponent : (@unpackExponent .binary64 b).toNat = 0 := by
        rw [hbottom]
        rfl
      rw [if_pos hbottom, if_pos hbottom]
      by_cases hzero : @unpackMantissa .binary64 b = 0#52
      · rw [dif_pos hzero, Content.ofParts, hempty.mpr hzero]
      · rw [dif_neg hzero, Content.ofParts, toNat_mantissa, hbias, hexponent]
        rfl
    · rw [if_neg hbottom, if_neg hbottom, Content.ofParts, toNat_implicit, toNat_mantissa,
        toNat_exponent, hbias]
      rfl

/-- The bits of a float, taken apart by hand, say what the float stands for. -/
theorem content_eq (x : Float) : content x = .ofParts (parts x) := ofBits_toNat _

theorem magnitude_of_content {x : Float} {v : Dyadic} (h : content x = .finite v) :
    magnitude x = v.mantissa * 2 ^ v.exponent := by
  rw [content_eq] at h
  rw [magnitude]
  cases hx : parts x with
  | notANumber =>
      rw [hx] at h
      cases h
  | infinity s =>
      rw [hx] at h
      cases h
  | zero s =>
      rw [hx] at h
      cases h
      simp
  | finite s m e hm =>
      rw [hx] at h
      cases h
      rfl

/-! ## The nearest whole number -/

/-- A whole number nearest to a value, the even one of two. -/
structure Nearest (value : ℚ) (n : Nat) : Prop where
  near : |(n : ℚ) - value| ≤ 1 / 2
  even : |(n : ℚ) - value| = 1 / 2 → n % 2 = 0

section

variable {low : Nat} {part : ℚ}

theorem nearest_of_down (hnonneg : 0 ≤ part) (hle : part ≤ 1 / 2)
    (heven : part = 1 / 2 → low % 2 = 0) : Nearest (low + part) low := by
  have hdown : |(low : ℚ) - (low + part)| = part := by
    rw [sub_add_cancel_left, abs_neg, abs_of_nonneg hnonneg]
  exact ⟨hdown.trans_le hle, fun h => heven (hdown.symm.trans h)⟩

theorem nearest_of_up (hlt : part < 1) (hge : 1 / 2 ≤ part)
    (heven : part = 1 / 2 → (low + 1) % 2 = 0) : Nearest (low + part) (low + 1) := by
  have hup : |((low + 1 : Nat) : ℚ) - (low + part)| = 1 - part := by
    push_cast
    rw [add_sub_add_left_eq_sub, abs_of_pos (sub_pos.mpr hlt)]
  refine ⟨by rw [hup]; linarith, fun h => heven ?_⟩
  rw [hup] at h
  linarith

end

theorem nearest_roundDiv (up : Nat) {down : Nat} (hdown : 0 < down) :
    Nearest (up / down) (roundDiv up down) := by
  have hpos : (0 : ℚ) < down := Nat.cast_pos.mpr hdown
  obtain ⟨low, hlow⟩ : ∃ low, low = up / down := ⟨_, rfl⟩
  obtain ⟨rest, hrest⟩ : ∃ rest, rest = up % down := ⟨_, rfl⟩
  obtain ⟨part, hpart⟩ : ∃ part : ℚ, part = rest / down := ⟨_, rfl⟩
  have hvalue : (up : ℚ) / down = low + part := by
    have hsplit : up = down * low + rest := by rw [hlow, hrest, Nat.div_add_mod]
    rw [hpart, hsplit]
    push_cast
    rw [add_div, mul_div_cancel_left₀ _ hpos.ne']
  have hnonneg : 0 ≤ part := by
    rw [hpart]
    exact div_nonneg (Nat.cast_nonneg _) hpos.le
  have hlt : part < 1 := by
    rw [hpart, div_lt_one hpos, Nat.cast_lt, hrest]
    exact Nat.mod_lt _ hdown
  have hbelow : 2 * rest < down ↔ part < 1 / 2 := by
    rw [hpart, div_lt_div_iff₀ hpos two_pos]
    norm_cast
    omega
  have habove : down < 2 * rest ↔ 1 / 2 < part := by
    rw [hpart, div_lt_div_iff₀ two_pos hpos]
    norm_cast
    omega
  simp only [roundDiv, ← hlow, ← hrest, hbelow, habove, hvalue]
  split
  · next h => exact nearest_of_down hnonneg h.le fun heq => absurd heq h.ne
  · next hge =>
      split
      · next h => exact nearest_of_up hlt h.le fun heq => absurd heq h.ne'
      · next hle =>
          split
          · next heven => exact nearest_of_down hnonneg (not_lt.mp hle) fun _ => heven
          · next hodd => exact nearest_of_up hlt (not_lt.mp hge) fun _ => by omega

/-- A number is rounded to less than an even number exactly if it is less than
half below it. -/
theorem Nearest.lt_iff_of_even {value : ℚ} {n k : Nat} (h : Nearest value n) (hk : k % 2 = 0) :
    n < k ↔ value < k - 1 / 2 := by
  obtain ⟨hdown, hup⟩ := abs_le.mp h.near
  constructor
  · intro hlt
    have hle : (n : ℚ) + 1 ≤ k := by exact_mod_cast hlt
    refine lt_of_le_of_ne (by linarith) fun heq => ?_
    have hn : (k : ℚ) = n + 1 := by linarith
    have hdiff : (n : ℚ) - value = -(1 / 2) := by linarith
    have heven := h.even (by rw [hdiff, abs_neg, abs_of_pos one_half_pos])
    have hk' : k = n + 1 := by exact_mod_cast hn
    omega
  · intro hlt
    have hn : (n : ℚ) < k := by linarith
    exact_mod_cast hn

/-- A number rounded to hundredths, counted in units of any size. -/
theorem Nearest.near_in_units {value unit : ℚ} {n : Nat} (h : Nearest (value * 10 ^ 2) n)
    (hunit : 0 ≤ unit) :
    |(n / 100 : ℚ) * unit - value * unit| ≤ 1 / 2 * (1 / 100) * unit := by
  have hfactor : (n / 100 : ℚ) * unit - value * unit =
      (n - value * 10 ^ 2) * (1 / 100 * unit) := by ring
  have hnonneg : (0 : ℚ) ≤ 1 / 100 * unit := mul_nonneg (by norm_num) hunit
  rw [hfactor, abs_mul, abs_of_nonneg hnonneg, mul_assoc (1 / 2 : ℚ)]
  exact mul_le_mul_of_nonneg_right h.near hnonneg

/-! ## Digits with a point -/

theorem writePadded_one (n : Nat) : Numeral.writePadded 1 n = Nat.toDigits 10 n := by
  have hlength : 1 - (Nat.toDigits 10 n).length = 0 := Nat.sub_eq_zero_of_le Nat.length_toDigits_pos
  rw [Numeral.writePadded, Numeral.write, hlength, List.replicate_zero, List.nil_append]

theorem writePadded_succ (width n : Nat) :
    Numeral.writePadded (width + 2) n =
      Numeral.writePadded (width + 1) (n / 10) ++ [Nat.digitChar (n % 10)] := by
  simp only [Numeral.writePadded, Numeral.write]
  rcases Nat.lt_or_ge n 10 with hlt | hge
  · rw [Nat.toDigits_of_lt_base hlt, Nat.div_eq_of_lt hlt, Nat.mod_eq_of_lt hlt, Nat.toDigits_zero]
    simp [List.replicate_succ']
  · have hzeros : width + 2 - ((Nat.toDigits 10 (n / 10)).length + 1) =
        width + 1 - (Nat.toDigits 10 (n / 10)).length := by omega
    rw [Nat.toDigits_of_base_le (by decide) hge, List.length_append, List.length_singleton, hzeros,
      List.append_assoc]

/-- The numeral of a number of hundredths. -/
def hundredths (n : Nat) : List Char :=
  Nat.toDigits 10 (n / 100) ++ ['.', Nat.digitChar (n / 10 % 10), Nat.digitChar (n % 10)]

theorem placePoint_two (n : Nat) : placePoint 2 n = hundredths n := by
  have hdigits : Numeral.writePadded 3 n =
      Nat.toDigits 10 (n / 100) ++ [Nat.digitChar (n / 10 % 10), Nat.digitChar (n % 10)] := by
    rw [writePadded_succ, writePadded_succ, writePadded_one, Nat.div_div_eq_div_mul,
      List.append_assoc]
    rfl
  rw [placePoint, hdigits, hundredths]
  simp

/-! ## A fixed number of places -/

theorem two_zpow_eq (e : Int) : (2 : ℚ) ^ e = 2 ^ e.toNat / 2 ^ (-e).toNat := by
  rcases Int.le_total 0 e with h | h
  · obtain ⟨n, rfl⟩ := Int.eq_ofNat_of_zero_le h
    have hnone : (-(n : Int)).toNat = 0 := by omega
    rw [hnone, Int.toNat_natCast, zpow_natCast, pow_zero, div_one]
  · obtain ⟨n, hn⟩ := Int.eq_ofNat_of_zero_le (Int.neg_nonneg_of_nonpos h)
    have hnone : e.toNat = 0 := by omega
    have he : e = -(n : Int) := by omega
    rw [hnone, hn, Int.toNat_natCast, he, zpow_neg, zpow_natCast, pow_zero, one_div]

theorem shifted_eq (v : Dyadic) (places : Nat) :
    v.shifted places =
      (v.mantissa * 2 ^ v.exponent.toNat * 10 ^ places, 2 ^ (-v.exponent).toNat) := by
  have hnone : (-(places : Int)).toNat = 0 := by omega
  rw [Dyadic.shifted, hnone]
  simp

/-- The number that is written out is the exact value, rounded once. -/
theorem nearest_shifted (v : Dyadic) (places : Nat) :
    Nearest (v.mantissa * 2 ^ v.exponent * 10 ^ places)
      (roundDiv (v.shifted places).1 (v.shifted places).2) := by
  have h := nearest_roundDiv (v.mantissa * 2 ^ v.exponent.toNat * 10 ^ places)
    (Nat.two_pow_pos (-v.exponent).toNat)
  have hvalue : ((v.mantissa * 2 ^ v.exponent.toNat * 10 ^ places : Nat) : ℚ) /
      ((2 ^ (-v.exponent).toNat : Nat) : ℚ) = v.mantissa * 2 ^ v.exponent * 10 ^ places := by
    rw [two_zpow_eq]
    push_cast
    ring
  rw [shifted_eq, ← hvalue]
  exact h

theorem fixed_of_plain {x : Float} (hx : Plain x) (places : Nat) :
    ∃ n, Nearest (magnitude x * 10 ^ places) n ∧
      fixed places x = .ofList (placePoint places n) := by
  obtain ⟨v, hcontent, hsign, hvalue⟩ : ∃ v, content x = .finite v ∧ v.negative = false ∧
      (v.mantissa : ℚ) * 2 ^ v.exponent = magnitude x := by
    rw [content_eq]
    rcases hx.cases with hzero | ⟨m, e, hm, hfinite⟩
    · rw [hzero, (plain_of_zero hzero).2]
      exact ⟨_, rfl, rfl, by simp⟩
    · rw [hfinite, (plain_of_finite hfinite).2]
      exact ⟨_, rfl, rfl, rfl⟩
  refine ⟨roundDiv (v.shifted places).1 (v.shifted places).2, ?_, ?_⟩
  · rw [← hvalue]
    exact nearest_shifted v places
  · rw [fixed, hcontent]
    simp [hsign]

end Decimal

end LinkTelemetry
