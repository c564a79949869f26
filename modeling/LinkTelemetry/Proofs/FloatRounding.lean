import LinkTelemetry.Proofs.FloatSign

/-!
# Rounding to 53 bits

Rounding shifts a mantissa to the right and keeps two bits of what falls off:
the last one, and whether any other was set. `weight` reads a mantissa with
these two bits as one number. A shift is then division by two that does not
forget a remainder (`weight_shiftRightOne`), and rounding to the nearest
mantissa is a function of the weight alone (`roundedMantissa_eq`). Both are
monotone, so rounding keeps the order of what is rounded.

The rounded mantissa has 53 bits or is the next power of two (`IsRounded`).
From there it follows that a result has the one form in which it is stored
(`canonical_roundWithAccuracy`), that a number is not rounded below a power of
two that is a float (`above_roundWithAccuracy`), and that the way through the
64 bits of a float changes nothing (`unpack_pack_of_le`).
-/

namespace LinkTelemetry.Binary64

open Float.Model (Format UnpackedFloat totalExponent)
open Float.Model.UnpackedFloat

/-! ## Shifting and rounding a mantissa -/

theorem shiftRight_succ (em : ExtendedMantissa) (k : Nat) :
    em >>> (k + 1) = (em >>> k).shiftRightOne := rfl

theorem mantissa_shiftRight (em : ExtendedMantissa) (k : Nat) :
    (em >>> k).mantissa = em.mantissa / 2 ^ k := by
  induction k with
  | zero => exact (Nat.div_one _).symm
  | succ k ih =>
      have hone : (em >>> (k + 1)).mantissa = (em >>> k).mantissa / 2 := rfl
      rw [hone, ih, Nat.div_div_eq_div_mul, Nat.pow_succ]

/-- A mantissa with the two bits behind it, as one number. -/
def weight (em : ExtendedMantissa) : Nat :=
  4 * em.mantissa + 2 * em.roundBit.toNat + em.stickyBit.toNat

theorem weight_shiftRightOne (em : ExtendedMantissa) :
    weight em.shiftRightOne = 2 * (weight em / 4) + min 1 (weight em % 4) := by
  obtain ⟨m, r, s⟩ := em
  have hm := Nat.div_add_mod m 2
  cases r <;> cases s <;> rcases Nat.mod_two_eq_zero_or_one m with h | h <;>
    simp [weight, ExtendedMantissa.shiftRightOne, h] <;> omega

theorem roundedMantissa_eq (em : ExtendedMantissa) :
    em.roundedMantissa = weight em / 4 +
      if weight em % 4 = 2 then weight em / 4 % 2 else if weight em % 4 = 3 then 1 else 0 := by
  obtain ⟨m, r, s⟩ := em
  cases r <;> cases s <;>
    simp [weight, ExtendedMantissa.roundedMantissa, ExtendedMantissa.accuracy,
      Accuracy.roundToNearestEven] <;> grind

theorem weight_shiftRight_mono {em en : ExtendedMantissa} (h : weight em ≤ weight en) (k : Nat) :
    weight (em >>> k) ≤ weight (en >>> k) := by
  induction k with
  | zero => exact h
  | succ k ih =>
      rw [shiftRight_succ, shiftRight_succ, weight_shiftRightOne, weight_shiftRightOne]
      omega

theorem roundedMantissa_mono {em en : ExtendedMantissa} (h : weight em ≤ weight en) :
    em.roundedMantissa ≤ en.roundedMantissa := by
  rw [roundedMantissa_eq, roundedMantissa_eq]
  generalize weight em = v at h ⊢
  generalize weight en = w at h ⊢
  have hv := Nat.mod_lt v (show 0 < 4 by decide)
  split_ifs <;> omega

theorem le_roundedMantissa (em : ExtendedMantissa) : em.mantissa ≤ em.roundedMantissa := by
  obtain ⟨m, r, s⟩ := em
  cases r <;> cases s <;>
    simp [ExtendedMantissa.roundedMantissa, ExtendedMantissa.accuracy, Accuracy.roundToNearestEven]

theorem mantissa_ofMantissaAndAccuracy (m : Nat) (a : Accuracy) :
    (ExtendedMantissa.ofMantissaAndAccuracy m a).mantissa = m := by
  cases a with
  | exact => rfl
  | inexact o => cases o <;> rfl

theorem log2_lt_of_lt {m k : Nat} (h : m < 2 ^ k) (hk : 0 < k) : m.log2 < k := by
  rw [Nat.log2_eq_log_two]
  exact Nat.log_lt_of_lt_pow' hk.ne' h

/-- How many bits of a mantissa are rounded off. -/
def surplus (m : Nat) (e : Int) : Nat :=
  (max ((m.log2 : Int) + 1 + e - 53) (-1074) - e).toNat

theorem shiftToTargetExponent_eq (m : Nat) (e : Int) (a : Accuracy) :
    shiftToTargetExponent .binary64 m e a =
      (ExtendedMantissa.ofMantissaAndAccuracy m a >>> surplus m e, e + surplus m e) := rfl

/-- What a number with a rounded mantissa looks like. A mantissa that was
rounded up to 54 bits is halved. -/
inductive IsRounded (s : Sign) (r : Nat) (t : Int) : UnpackedFloat → Prop where
  | zero (h : r = 0) : IsRounded s r t (.zero s)
  | fits (h : 0 < r) (hr : r < 2 ^ 53) : IsRounded s r t (.finite s r t h)
  | carried (hr : r = 2 ^ 53) : IsRounded s r t (.finite s (2 ^ 52) (t + 1) (by decide))

theorem log2_le_add_surplus (m : Nat) (e : Int) :
    -1074 ≤ e + surplus m e ∧ m.log2 ≤ 52 + surplus m e := by
  rw [surplus]
  omega

theorem roundedMantissa_le_succ (em : ExtendedMantissa) : em.roundedMantissa ≤ em.mantissa + 1 :=
  roundToNearestEven_le ..

theorem roundedMantissa_le (m : Nat) (e : Int) (a : Accuracy) :
    (ExtendedMantissa.ofMantissaAndAccuracy m a >>> surplus m e).roundedMantissa ≤ 2 ^ 53 := by
  have hlog := (log2_le_add_surplus m e).2
  have hshort : m / 2 ^ surplus m e < 2 ^ 53 := by
    rw [Nat.div_lt_iff_lt_mul (Nat.two_pow_pos _), ← Nat.pow_add]
    refine Nat.lt_of_lt_of_le Nat.lt_log2_self (Nat.pow_le_pow_right (by decide) ?_)
    omega
  have hround := roundedMantissa_le_succ
    (ExtendedMantissa.ofMantissaAndAccuracy m a >>> surplus m e)
  rw [mantissa_shiftRight, mantissa_ofMantissaAndAccuracy] at hround
  exact Nat.le_trans hround hshort

theorem roundWithAccuracy_eq (s : Sign) (m : Nat) (e : Int) (a : Accuracy) :
    let r := (ExtendedMantissa.ofMantissaAndAccuracy m a >>> surplus m e).roundedMantissa
    let t := e + (surplus m e : Int)
    roundWithAccuracy .binary64 s m e a =
      if h : r / 2 ^ surplus r t = 0 then .zero s
      else .finite s (r / 2 ^ surplus r t) (t + surplus r t) (Nat.pos_of_ne_zero h) := by
  simp only [roundWithAccuracy, shiftToTargetExponent_eq, mantissa_shiftRight,
    mantissa_ofMantissaAndAccuracy]

theorem isRounded_roundWithAccuracy (s : Sign) (m : Nat) (e : Int) (a : Accuracy) :
    IsRounded s (ExtendedMantissa.ofMantissaAndAccuracy m a >>> surplus m e).roundedMantissa
      (e + surplus m e) (roundWithAccuracy .binary64 s m e a) := by
  have hle := roundedMantissa_le m e a
  have hleast := (log2_le_add_surplus m e).1
  rw [roundWithAccuracy_eq]
  generalize (ExtendedMantissa.ofMantissaAndAccuracy m a >>> surplus m e).roundedMantissa = r
    at hle ⊢
  generalize e + (surplus m e : Int) = t at hleast ⊢
  rcases Nat.lt_or_eq_of_le hle with hlt | rfl
  · have hnone : surplus r t = 0 := by
      have hlog := log2_lt_of_lt hlt (by decide)
      rw [surplus]
      omega
    simp only [hnone, Nat.pow_zero, Nat.div_one, Nat.cast_zero, add_zero]
    split
    · next h => exact .zero h
    · next h => exact .fits _ hlt
  · have hone : surplus (2 ^ 53) t = 1 := by
      rw [surplus, Nat.log2_two_pow]
      omega
    simp only [hone]
    exact .carried rfl

theorem two_pow_le_roundedMantissa {m : Nat} (hm : 0 < m) {e : Int} (a : Accuracy)
    (hle : surplus m e ≤ m.log2) : 2 ^ (m.log2 - surplus m e) ≤
      (ExtendedMantissa.ofMantissaAndAccuracy m a >>> surplus m e).roundedMantissa := by
  have hround := le_roundedMantissa (ExtendedMantissa.ofMantissaAndAccuracy m a >>> surplus m e)
  rw [mantissa_shiftRight, mantissa_ofMantissaAndAccuracy] at hround
  refine Nat.le_trans ?_ hround
  rw [Nat.le_div_iff_mul_le (Nat.two_pow_pos _), ← Nat.pow_add, Nat.sub_add_cancel hle]
  exact Nat.log2_self_le hm.ne'

/-! ## Canonical results -/

theorem IsRounded.canonical {s : Sign} {r : Nat} {t : Int} {u : UnpackedFloat}
    (h : IsRounded s r t u) (ht : -1074 ≤ t) (hfull : -1074 < t → 2 ^ 52 ≤ r) : Canonical u := by
  cases h with
  | zero => trivial
  | fits _ hr => exact ⟨ht, hr, hfull⟩
  | carried => exact ⟨by omega, by decide, fun _ => Nat.le_refl _⟩

/-- Rounding ends in the one form in which a number is stored if the mantissa
fills its bits to begin with, or the exponent is as low as it can be. -/
theorem canonical_roundWithAccuracy (s : Sign) {m : Nat} {e : Int} (a : Accuracy)
    (hfills : 52 ≤ m.log2 ∨ e ≤ -1074) : Canonical (roundWithAccuracy .binary64 s m e a) := by
  refine (isRounded_roundWithAccuracy s m e a).canonical (log2_le_add_surplus m e).1 fun hlt => ?_
  have hsurplus : surplus m e + 52 = m.log2 := by
    rw [surplus] at hlt ⊢
    omega
  have hm : 0 < m := by
    by_contra hzero
    rw [Nat.eq_zero_of_not_pos hzero, Nat.log2_zero] at hsurplus
    omega
  have hround := two_pow_le_roundedMantissa hm a (show surplus m e ≤ m.log2 by omega)
  rwa [← hsurplus, Nat.add_sub_cancel_left] at hround

/-- A positive number that is not below a power of two. -/
inductive Above (k : Int) : UnpackedFloat → Prop where
  | infinity : Above k (.infinity .positive)
  | finite {m : Nat} {e : Int} {hm : 0 < m} (h : k ≤ m.log2 + e) :
      Above k (.finite .positive m e hm)

theorem IsRounded.above {r : Nat} {t k : Int} {u : UnpackedFloat}
    (h : IsRounded .positive r t u) (hr : 0 < r) (hk : k ≤ r.log2 + t) : Above k u := by
  cases h with
  | zero hzero => exact absurd hr (by omega)
  | fits => exact .finite hk
  | carried hcarried =>
      rw [hcarried, Nat.log2_two_pow] at hk
      refine .finite ?_
      rw [Nat.log2_two_pow]
      omega

/-- Rounding does not take a number below a power of two that is a float. -/
theorem above_roundWithAccuracy {m : Nat} (hm : 0 < m) {e k : Int} (a : Accuracy)
    (hk : k ≤ m.log2 + e) (hleast : -1074 ≤ k) :
    Above k (roundWithAccuracy .binary64 .positive m e a) := by
  have hsurplus : surplus m e ≤ m.log2 := by
    rw [surplus]
    omega
  have hround := two_pow_le_roundedMantissa hm a hsurplus
  have hpos := Nat.lt_of_lt_of_le (Nat.two_pow_pos _) hround
  refine (isRounded_roundWithAccuracy .positive m e a).above hpos ?_
  have hlog := (Nat.le_log2 hpos.ne').mpr hround
  omega

theorem log2_shiftLeft {m : Nat} (hm : 0 < m) (k : Nat) : (m <<< k).log2 = m.log2 + k := by
  have hpos : 0 < m <<< k := Nat.shiftLeft_pos_iff.mpr hm
  rw [Nat.log2_eq_iff hpos.ne', Nat.shiftLeft_eq]
  constructor
  · rw [Nat.pow_add]
    exact Nat.mul_le_mul_right _ (Nat.log2_self_le hm.ne')
  · rw [Nat.add_right_comm, Nat.pow_add]
    exact Nat.mul_lt_mul_of_pos_right Nat.lt_log2_self (Nat.two_pow_pos k)

/-- An integer is first given as many bits as a mantissa has. -/
theorem round_eq (s : Sign) (m : Nat) (e : Int) :
    UnpackedFloat.round .binary64 s m e =
      roundWithAccuracy .binary64 s
        (m <<< (e - max ((m.log2 : Int) + 1 + e - 53) (-1074)).toNat)
        (e - (e - max ((m.log2 : Int) + 1 + e - 53) (-1074)).toNat) .exact := rfl

theorem canonical_round (s : Sign) {m : Nat} (hm : 0 < m) (e : Int) :
    Canonical (UnpackedFloat.round .binary64 s m e) := by
  rw [round_eq]
  refine canonical_roundWithAccuracy s .exact ?_
  rw [log2_shiftLeft hm]
  omega

theorem above_round {m : Nat} (hm : 0 < m) {e k : Int} (hk : k ≤ m.log2 + e)
    (hleast : -1074 ≤ k) : Above k (UnpackedFloat.round .binary64 .positive m e) := by
  rw [round_eq]
  refine above_roundWithAccuracy (Nat.shiftLeft_pos_iff.mpr hm) .exact ?_ hleast
  rw [log2_shiftLeft hm]
  omega

/-! ## Through the bits and back -/

/-- A canonical number is read back from its bits as it was, if its exponent
fits. -/
theorem unpack_pack_of_le {s : Sign} {m : Nat} {e : Int} {hm : 0 < m}
    (h : Canonical (.finite s m e hm)) (he : e ≤ 971) :
    unpack .binary64 (pack .binary64 (.finite s m e hm)) = .finite s m e hm := by
  obtain ⟨hleast, hshort, hfull⟩ := h
  have hbias : Format.binary64.exponentBias = 1023 := rfl
  have hwidth : Format.binary64.mantissaBits = 53 := rfl
  have hbits : (2 : Nat) ^ Format.binary64.exponentBits = 2048 := rfl
  have hexponent : (BitVec.ofNat 11 (e + (1023 : Nat) + (52 : Nat)).toNat).toNat =
      (e + (1023 : Nat) + (52 : Nat)).toNat := by
    rw [BitVec.toNat_ofNat]
    exact Nat.mod_eq_of_lt (by omega)
  simp only [pack, hbias, hwidth, hbits]
  rw [if_neg (by omega)]
  rcases Nat.lt_or_ge m (2 ^ 52) with hsmall | hlarge
  · have hlog := log2_lt_of_lt hsmall (by decide)
    have hmantissa : (BitVec.ofNat 52 m).toNat = m := by
      rw [BitVec.toNat_ofNat]
      exact Nat.mod_eq_of_lt hsmall
    have hleast' : e = -1074 := by omega
    have hfraction : BitVec.ofNat 52 m ≠ 0#52 := by
      intro hzero
      rw [hzero] at hmantissa
      exact hm.ne hmantissa
    rw [if_neg (by omega)]
    simp only [unpack, unpackMantissa_packComponents, unpackExponent_packComponents,
      unpackSign_packComponents, Sign.ofBitVec_toBitVec, hbias]
    rw [if_neg (by decide), if_pos trivial, dif_neg hfraction]
    simp only [UnpackedFloat.finite.injEq, true_and]
    exact ⟨hmantissa, hleast'.symm⟩
  · have hlog : m.log2 = 52 := (Nat.log2_eq_iff hm.ne').mpr ⟨hlarge, hshort⟩
    have hmantissa : (1#1 ++ BitVec.ofNat 52 m).toNat = m := by
      rw [toNat_implicit, BitVec.toNat_ofNat]
      omega
    rw [if_pos (by omega)]
    have hfinite : BitVec.ofNat 11 (e + (1023 : Nat) + (52 : Nat)).toNat ≠ -1#11 := by
      intro hfull
      rw [hfull] at hexponent
      have hmax : (-1#11).toNat = 2047 := rfl
      omega
    have hnormal : BitVec.ofNat 11 (e + (1023 : Nat) + (52 : Nat)).toNat ≠ 0#11 := by
      intro hzero
      rw [hzero] at hexponent
      have hmin : (0#11).toNat = 0 := rfl
      omega
    simp only [unpack, unpackMantissa_packComponents, unpackExponent_packComponents,
      unpackSign_packComponents, Sign.ofBitVec_toBitVec, hbias]
    rw [if_neg hfinite, if_neg hnormal]
    simp only [UnpackedFloat.finite.injEq, true_and]
    exact ⟨hmantissa, by rw [hexponent]; omega⟩

end LinkTelemetry.Binary64
