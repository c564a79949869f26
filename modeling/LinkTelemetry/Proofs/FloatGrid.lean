import LinkTelemetry.Proofs.FloatRounding

/-!
# Differences and quotients that are not lost

All floats are multiples of the least one above zero, and so are their exact
differences. A difference of two floats that are not the same is therefore
never rounded to zero. The argument is the same for any coarser grid: two
multiples of a power of two that are not the same are that power apart
(`above_sub`), so whole numbers are one apart or more.

A quotient can be lost, but not one of a number that is one or more: no
divisor is large enough for it (`above_div`).
-/

namespace LinkTelemetry.Binary64

open Float.Model (Format UnpackedFloat totalExponent)
open Float.Model.UnpackedFloat

/-! ## Grids -/

/-- A number is a multiple of a power of two, if it is finite. -/
def OnGrid (k : Int) : UnpackedFloat → Prop
  | .finite _ m e _ => 2 ^ (k - e).toNat ∣ m
  | _ => True

theorem Canonical.onGrid {u : UnpackedFloat} (h : Canonical u) : OnGrid (-1074) u := by
  cases u with
  | finite s m e hm =>
      have hzero : (-1074 - e).toNat = 0 := by
        have hleast := h.1
        omega
      rw [OnGrid, hzero]
      exact Nat.one_dvd m
  | _ => trivial

theorem le_log2_of_dvd {d : Nat} {k e : Int} (hd : 0 < d) (h : 2 ^ (k - e).toNat ∣ d) :
    k ≤ d.log2 + e := by
  have hlog := (Nat.le_log2 hd.ne').mpr (Nat.le_of_dvd hd h)
  omega

theorem dvd_decreaseExponent {m : Nat} {e k : Int} (h : 2 ^ (k - e).toNat ∣ m) (g : Int) :
    2 ^ (k - g).toNat ∣ (decreaseExponent m e g).1 := by
  have hle : (k - g).toNat ≤ (k - e).toNat + (e - g).toNat := by omega
  refine (Nat.pow_dvd_pow 2 hle).trans ?_
  rw [decreaseExponent, Nat.shiftLeft_eq, Nat.pow_add]
  exact Nat.mul_dvd_mul_right h _

theorem decreaseExponent_pos {m : Nat} (hm : 0 < m) (e g : Int) :
    0 < (decreaseExponent m e g).1 := Nat.shiftLeft_pos_iff.mpr hm

/-! ## Differences -/

theorem canonical_normalize (m e : Int) (z : Sign) :
    Canonical (UnpackedFloat.normalize .binary64 m e z) := by
  rw [UnpackedFloat.normalize]
  split
  · next hlt =>
      have hneg := Int.compare_eq_lt.mp hlt
      exact canonical_round _ (by omega) e
  · trivial
  · next hgt =>
      have hpos := Int.compare_eq_gt.mp hgt
      exact canonical_round _ (by omega) e

theorem above_normalize {m e k : Int} (hm : 0 < m) (h : 2 ^ (k - e).toNat ∣ m.toNat)
    (hleast : -1074 ≤ k) (z : Sign) : Above k (UnpackedFloat.normalize .binary64 m e z) := by
  have hpos : 0 < m.toNat := by omega
  rw [UnpackedFloat.normalize, Int.compare_eq_gt.mpr hm]
  exact above_round hpos (le_log2_of_dvd hpos h) hleast

theorem canonical_sub {a b : UnpackedFloat} (ha : Canonical a) (hb : Canonical b) :
    Canonical (sub .binary64 a b) := by
  cases a with
  | notANumber => trivial
  | infinity s =>
      cases b with
      | infinity t => simp only [sub]; split <;> trivial
      | _ => trivial
  | zero s =>
      cases b with
      | zero t => simp only [sub]; split <;> trivial
      | finite t n f hn => exact hb
      | _ => trivial
  | finite s m e hm =>
      cases b with
      | zero t => exact ha
      | finite t n f hn => exact canonical_normalize ..
      | _ => trivial

theorem dvd_apply {d n : Nat} (h : d ∣ n) (s : Sign) : (d : Int) ∣ s.apply n := by
  cases s with
  | negative => exact Int.dvd_neg.mpr (Int.natCast_dvd_natCast.mpr h)
  | positive => exact Int.natCast_dvd_natCast.mpr h

theorem apply_lt_apply {s t : Sign} {m n : Nat} {e f : Int} {hm : 0 < m} {hn : 0 < n}
    (ha : Canonical (.finite s m e hm)) (hb : Canonical (.finite t n f hn))
    (h : (UnpackedFloat.finite t n f hn).compare (.finite s m e hm) = some .lt) :
    t.apply (decreaseExponent n f (min e f)).1 < s.apply (decreaseExponent m e (min e f)).1 := by
  obtain ⟨hae, ham, hanormal⟩ := ha
  obtain ⟨hbe, hbm, hbnormal⟩ := hb
  have hmpos := decreaseExponent_pos hm e (min e f)
  have hnpos := decreaseExponent_pos hn f (min e f)
  cases t with
  | negative =>
      cases s with
      | negative =>
          have hswap : (compare e f).then (compare m n) = .lt := by
            rw [← Int.compare_swap, ← Nat.compare_swap, ← Ordering.swap_then]
            exact Option.some.inj h
          have hlt := decreased_lt_of_compare_eq_lt ham (fun hlt => hbnormal (by omega)) hswap
          simp only [Sign.apply]
          omega
      | positive =>
          simp only [Sign.apply]
          omega
  | positive =>
      cases s with
      | negative => cases h
      | positive =>
          have hlt := decreased_lt_of_compare_eq_lt hbm (fun hlt => hanormal (by omega))
            (Option.some.inj h)
          rw [Int.min_comm f e] at hlt
          simp only [Sign.apply]
          omega

/-- Two multiples of a power of two that are not the same are at least that
power apart, also after rounding. -/
theorem above_sub {a b : UnpackedFloat} {k : Int} (ha : Canonical a) (hb : Canonical b)
    (h : b.compare a = some .lt) (hak : OnGrid k a) (hbk : OnGrid k b) (hleast : -1074 ≤ k) :
    Above k (sub .binary64 a b) := by
  cases a with
  | notANumber => cases b <;> cases h
  | infinity s =>
      cases b with
      | notANumber => cases h
      | infinity t => cases s <;> cases t <;> first | exact .infinity | cases h
      | zero t => cases s <;> first | exact .infinity | cases h
      | finite t n f hn => cases s <;> cases t <;> first | exact .infinity | cases h
  | zero s =>
      cases b with
      | notANumber => cases h
      | infinity t => cases t <;> first | exact .infinity | cases h
      | zero t => cases h
      | finite t n f hn =>
          cases t with
          | negative => exact .finite (le_log2_of_dvd hn hbk)
          | positive => cases h
  | finite s m e hm =>
      cases b with
      | notANumber => cases h
      | infinity t => cases s <;> cases t <;> first | exact .infinity | cases h
      | zero t =>
          cases s with
          | negative => cases h
          | positive => exact .finite (le_log2_of_dvd hm hak)
      | finite t n f hn =>
          have hlt := apply_lt_apply ha hb h
          refine above_normalize (Int.sub_pos_of_lt hlt) ?_ hleast .positive
          refine Int.natCast_dvd_natCast.mp ?_
          rw [Int.toNat_of_nonneg (Int.sub_nonneg_of_le (Int.le_of_lt hlt))]
          exact Int.dvd_sub (dvd_apply (dvd_decreaseExponent hak _) s)
            (dvd_apply (dvd_decreaseExponent hbk _) t)

/-! ## Quotients -/

theorem two_pow_le_div {m n j : Nat} (hn : 0 < n) (h : j + n.log2 < m.log2) :
    2 ^ j ≤ m / n := by
  have hm : m ≠ 0 := by
    rintro rfl
    rw [Nat.log2_zero] at h
    omega
  rw [Nat.le_div_iff_mul_le hn]
  calc 2 ^ j * n ≤ 2 ^ j * 2 ^ (n.log2 + 1) :=
        Nat.mul_le_mul_left _ (Nat.le_of_lt Nat.lt_log2_self)
    _ = 2 ^ (j + n.log2 + 1) := (Nat.pow_add ..).symm
    _ ≤ 2 ^ m.log2 := Nat.pow_le_pow_right (by decide) h
    _ ≤ m := Nat.log2_self_le hm

/-- The exponent of a quotient before it is rounded. -/
def quotientExponent (m n : Nat) (e f : Int) : Int :=
  min (e - f) (max ((m.log2 : Int) + 1 + e - (n.log2 + 1 + f) - 53) (-1074))

theorem div_eq {s t : Sign} {m n : Nat} {e f : Int} (hm : 0 < m) (hn : 0 < n) :
    let g := quotientExponent m n e f
    div .binary64 (.finite s m e hm) (.finite t n f hn) =
      roundWithAccuracy .binary64 (s / t) ((m <<< (e - f - g).toNat) / n) g
        (accuracyOfFraction ((m <<< (e - f - g).toNat) % n) n) := rfl

/-- A quotient does not underflow, and its mantissa is full, if the number
that is divided is not too small. No divisor is above `2 ^ 1024`. -/
theorem above_div {a : UnpackedFloat} {k : Int} (ha : Above k a) (hk : -50 ≤ k) {n : Nat}
    {f : Int} {hn : 0 < n} (hlog : n.log2 ≤ 52) (hf : f ≤ 971) :
    Above (k - 1024) (div .binary64 a (.finite .positive n f hn)) ∧
      Canonical (div .binary64 a (.finite .positive n f hn)) := by
  cases ha with
  | infinity => exact ⟨.infinity, trivial⟩
  | @finite m e hm h =>
      have hsize : (m.log2 : Int) + e - (n.log2 + f) ≥ -1073 := by omega
      rw [div_eq hm hn]
      obtain ⟨g, hg⟩ : ∃ g, g = quotientExponent m n e f := ⟨_, rfl⟩
      obtain ⟨d, hd⟩ : ∃ d : Nat, d = (e - f - g).toNat := ⟨_, rfl⟩
      rw [← hg, ← hd]
      rw [quotientExponent] at hg
      have hpow : 2 ^ (m.log2 + d - n.log2 - 1) ≤ m <<< d / n := by
        refine two_pow_le_div hn ?_
        rw [log2_shiftLeft hm]
        omega
      have hpos := Nat.lt_of_lt_of_le (Nat.two_pow_pos _) hpow
      have hbits := (Nat.le_log2 hpos.ne').mpr hpow
      constructor
      · exact above_roundWithAccuracy hpos _ (by omega) (by omega)
      · exact canonical_roundWithAccuracy _ _ (by omega)

/-! ## Floats -/

theorem Above.unpack_pack {u : UnpackedFloat} {k : Int} (h : Above k u) (hu : Canonical u) :
    Above k (unpack .binary64 (pack .binary64 u)) := by
  cases h with
  | infinity => exact .infinity
  | @finite m e hm h =>
      rcases Int.lt_or_le 971 e with hover | hfits
      · have hbias : Format.binary64.exponentBias = 1023 := rfl
        have hwidth : Format.binary64.mantissaBits = 53 := rfl
        have hbits : (2 : Nat) ^ Format.binary64.exponentBits = 2048 := rfl
        simp only [pack, hbias, hwidth, hbits]
        rw [if_pos (by omega)]
        exact .infinity
      · rw [unpack_pack_of_le hu hfits]
        exact .finite h

theorem Above.zero_lt {x : Float} {k : Int} (h : Above k (parts x)) : 0 < x := by
  rw [lt_iff, parts_zero]
  generalize parts x = u at h
  cases h with
  | infinity => rfl
  | finite => rfl

theorem onGrid_parts (x : Float) : OnGrid (-1074) (parts x) := (canonical_parts x).onGrid

theorem above_parts_sub {x y : Float} {k : Int} (h : x < y) (hx : OnGrid k (parts x))
    (hy : OnGrid k (parts y)) (hleast : -1074 ≤ k) : Above k (parts (y - x)) := by
  have hcx := canonical_parts x
  have hcy := canonical_parts y
  rw [parts_sub]
  exact (above_sub hcy hcx ((lt_iff x y).mp h) hy hx hleast).unpack_pack (canonical_sub hcy hcx)

/-- The difference of two floats that are not the same is not rounded to
zero. -/
theorem zero_lt_sub {x y : Float} (h : x < y) : 0 < y - x :=
  (above_parts_sub h (onGrid_parts x) (onGrid_parts y) (Int.le_refl _)).zero_lt

theorem below_unpack {bits : BitVec 64} (h : (unpack .binary64 bits).isFinite) :
    Below 971 (unpack .binary64 bits) := by
  have hbias : Format.binary64.exponentBias = 1023 := rfl
  simp only [unpack, hbias] at h ⊢
  split
  · next hfull =>
      rw [if_pos hfull] at h
      split at h <;> cases h
  · next hfinite =>
      have hshort : (@unpackExponent .binary64 bits).toNat < 2048 := BitVec.isLt _
      have hlt : (@unpackExponent .binary64 bits).toNat < 2047 :=
        Nat.lt_of_le_of_ne (Nat.le_of_lt_succ hshort) fun heq =>
          hfinite (BitVec.eq_of_toNat_eq heq)
      split
      · next hleast =>
          have hzero : (@unpackExponent .binary64 bits).toNat = 0 := by
            rw [hleast]
            rfl
          split
          · exact .zero _
          · exact .finite (by omega)
      · exact .finite (by omega)

theorem below_parts {x : Float} (h : x.isFinite) : Below 971 (parts x) := below_unpack h

/-- A difference of one or more is not lost when it is divided. -/
theorem zero_lt_div {x t : Float} (hx : Above 0 (parts x)) (hfinite : t.isFinite) (hpos : 0 < t) :
    0 < x / t := by
  obtain ⟨n, f, hn, ht⟩ := parts_of_pos hfinite hpos
  have hbelow := below_parts hfinite
  have hshort := canonical_parts t
  rw [ht] at hbelow hshort
  cases hbelow with
  | finite hf =>
      have hlog := log2_lt_of_lt hshort.2.1 (by decide)
      obtain ⟨habove, hcanonical⟩ := above_div hx (by decide) (Nat.le_of_lt_succ hlog) hf
      have hparts : Above (-1024) (parts (x / t)) := by
        rw [parts_div, ht]
        exact habove.unpack_pack hcanonical
      exact hparts.zero_lt

end LinkTelemetry.Binary64
