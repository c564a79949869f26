import LinkTelemetry.Proofs.FloatGrid

/-!
# Words as floats

A word has up to 64 bits and a float keeps 53 of them. What is left of the
order of the words is the subject of this file: the larger word is never the
smaller float (`toFloat_lt_or_beq`), and two words can only fall together if
both have 54 bits or more and are close to each other (`toFloat_lt`).

The order of floats is the one of their exponents and then of their mantissas.
`rank` makes one number of the two, which grows by one from each float to the
next, and says it of the word itself.
-/

namespace LinkTelemetry.Binary64

open Float.Model (Format UnpackedFloat totalExponent)
open Float.Model.UnpackedFloat

/-! ## The mantissa of a word -/

/-- The 53 bits to which a number is rounded. They are `2 ^ 53` if it is
rounded up to the next power of two. -/
def significand (n : Nat) : Nat :=
  (ExtendedMantissa.ofMantissaAndAccuracy (n <<< (52 - n.log2)) .exact >>>
    (n.log2 - 52)).roundedMantissa

theorem surplus_shiftLeft {n : Nat} (hn : 0 < n) :
    surplus (n <<< (52 - n.log2)) (0 - (52 - n.log2 : Nat)) = n.log2 - 52 := by
  rw [surplus, log2_shiftLeft hn]
  omega

theorem isRounded_normalize {n : Nat} (hn : 0 < n) :
    IsRounded .positive (significand n) ((n.log2 : Int) - 52)
      (UnpackedFloat.normalize .binary64 n 0 .positive) := by
  have hshift : ((0 : Int) - max ((n.log2 : Int) + 1 + 0 - 53) (-1074)).toNat = 52 - n.log2 := by
    omega
  have hexponent : (n.log2 : Int) - 52 = 0 - (52 - n.log2 : Nat) + (n.log2 - 52 : Nat) := by omega
  have hround : UnpackedFloat.normalize .binary64 n 0 .positive =
      UnpackedFloat.round .binary64 .positive n 0 := by
    rw [UnpackedFloat.normalize, Int.compare_eq_gt.mpr (by omega)]
    rfl
  rw [hround, round_eq, hshift, hexponent, significand, ← surplus_shiftLeft hn]
  exact isRounded_roundWithAccuracy ..

theorem significand_of_le {n : Nat} (h : n.log2 ≤ 52) : significand n = n * 2 ^ (52 - n.log2) := by
  rw [significand, Nat.sub_eq_zero_of_le h, ← Nat.shiftLeft_eq]
  rfl

theorem significand_bounds {n : Nat} (hn : 0 < n) :
    2 ^ 52 ≤ significand n ∧ significand n ≤ 2 ^ 53 := by
  have hpos : 0 < n <<< (52 - n.log2) := Nat.shiftLeft_pos_iff.mpr hn
  have hsurplus := surplus_shiftLeft hn
  have hlog := log2_shiftLeft hn (52 - n.log2)
  rw [significand, ← hsurplus]
  constructor
  · refine Nat.le_trans ?_ (two_pow_le_roundedMantissa hpos .exact (by omega))
    exact Nat.pow_le_pow_right (by decide) (by omega)
  · exact roundedMantissa_le ..

theorem significand_mono {m n : Nat} (h : m ≤ n) (hlog : m.log2 = n.log2) :
    significand m ≤ significand n := by
  rw [significand, significand, hlog]
  refine roundedMantissa_mono (weight_shiftRight_mono ?_ _)
  have hshift : m <<< (52 - n.log2) ≤ n <<< (52 - n.log2) := by
    rw [Nat.shiftLeft_eq, Nat.shiftLeft_eq]
    exact Nat.mul_le_mul_right _ h
  exact Nat.add_le_add_right (Nat.add_le_add_right (Nat.mul_le_mul_left 4 hshift) _) _

theorem significand_near {n : Nat} (h : 52 ≤ n.log2) :
    n / 2 ^ (n.log2 - 52) ≤ significand n ∧ significand n ≤ n / 2 ^ (n.log2 - 52) + 1 := by
  have hmantissa : (ExtendedMantissa.ofMantissaAndAccuracy n .exact >>>
      (n.log2 - 52)).mantissa = n / 2 ^ (n.log2 - 52) := mantissa_shiftRight ..
  have hzero : 52 - n.log2 = 0 := by omega
  rw [significand, hzero, Nat.shiftLeft_zero, ← hmantissa]
  exact ⟨le_roundedMantissa _, roundedMantissa_le_succ _⟩

/-- The place of a number among the floats. -/
def rank (n : Nat) : Int := ((n.log2 : Int) - 52) * 2 ^ 52 + significand n

theorem rank_mono {m n : Nat} (hm : 0 < m) (h : m ≤ n) : rank m ≤ rank n := by
  rw [rank, rank]
  rcases Nat.eq_or_lt_of_le (log2_mono h) with heq | hlt
  · have hle := significand_mono h heq
    rw [heq]
    omega
  · have hle := (significand_bounds hm).2
    have hge := (significand_bounds (Nat.lt_of_lt_of_le hm h)).1
    omega

/-- Up to `2 ^ 53` all numbers are floats of their own, -/
theorem rank_lt_of_short {m n : Nat} (hm : 0 < m) (h : m < n) (hshort : m < 2 ^ 53) :
    rank m < rank n := by
  have hlog := log2_lt_of_lt hshort (by decide)
  have hexact := significand_of_le (Nat.le_of_lt_succ hlog)
  rw [rank, rank]
  rcases Nat.eq_or_lt_of_le (log2_mono (Nat.le_of_lt h)) with heq | hlt
  · have hexact' := significand_of_le (heq ▸ Nat.le_of_lt_succ hlog)
    have hlt : significand m < significand n := by
      rw [hexact, hexact', heq]
      exact Nat.mul_lt_mul_of_pos_right h (Nat.two_pow_pos _)
    rw [heq]
    omega
  · have hlt' : significand m < 2 ^ 53 := by
      rw [hexact]
      calc m * 2 ^ (52 - m.log2) < 2 ^ (m.log2 + 1) * 2 ^ (52 - m.log2) :=
            Nat.mul_lt_mul_of_pos_right Nat.lt_log2_self (Nat.two_pow_pos _)
        _ = 2 ^ 53 := by
            rw [← Nat.pow_add]
            congr 1
            omega
    have hge := (significand_bounds (Nat.lt_trans hm h)).1
    omega

/-- and words that are `2 ^ 12` apart are, whatever their size. -/
theorem rank_lt_of_far {m n : Nat} (hm : 0 < m) (h : m + 2 ^ 12 ≤ n) (hn : n < 2 ^ 64) :
    rank m < rank n := by
  rcases Nat.lt_or_ge m (2 ^ 53) with hshort | hlong
  · exact rank_lt_of_short hm (by omega) hshort
  have hlog : 53 ≤ m.log2 := (Nat.le_log2 hm.ne').mpr hlong
  have hlog' : n.log2 < 64 := log2_lt_of_lt hn (by decide)
  have hmn := log2_mono (show m ≤ n by omega)
  have hnear := (significand_near (show 52 ≤ m.log2 by omega)).2
  have hnear' := (significand_near (show 52 ≤ n.log2 by omega)).1
  have hp := Nat.two_pow_pos (m.log2 - 52)
  rw [rank, rank]
  rcases Nat.eq_or_lt_of_le hmn with heq | hlt
  · have hpow : 2 ^ (m.log2 - 52) ≤ 2 ^ 11 := Nat.pow_le_pow_right (by decide) (by omega)
    have hdiv : (m + 2 * 2 ^ (m.log2 - 52)) / 2 ^ (m.log2 - 52) ≤ n / 2 ^ (m.log2 - 52) :=
      Nat.div_le_div_right (by omega)
    rw [Nat.add_mul_div_right _ _ hp] at hdiv
    rw [← heq] at hnear' ⊢
    omega
  · have hle := (significand_bounds hm).2
    have hge := (significand_bounds (show 0 < n by omega)).1
    rcases Nat.eq_or_lt_of_le (Nat.succ_le_of_lt hlt) with hnext | hfar
    · have hpow : 2 ^ (m.log2 - 52) ≤ 2 ^ 10 := Nat.pow_le_pow_right (by decide) (by omega)
      have hnext : n.log2 - 52 = m.log2 - 52 + 1 := by omega
      rw [hnext, Nat.pow_succ] at hnear'
      generalize 2 ^ (m.log2 - 52) = p at hp hpow hnear hnear'
      have hgap : significand m < 2 ^ 53 ∨ 2 ^ 52 < significand n := by
        refine or_iff_not_imp_left.mpr fun hfull => ?_
        have hlow : (2 ^ 53 - 1) * p ≤ m := (Nat.le_div_iff_mul_le hp).mp (by omega)
        have hhigh : 2 ^ 52 + 1 ≤ n / (p * 2) :=
          (Nat.le_div_iff_mul_le (by omega)).mpr (by omega)
        omega
      omega
    · omega

/-! ## The order -/

theorem compare_eq_compare_rank {m n : Nat} {e f : Int} (hm : 2 ^ 52 ≤ m) (hm' : m < 2 ^ 53)
    (hn : 2 ^ 52 ≤ n) (hn' : n < 2 ^ 53) :
    (compare e f).then (compare m n) = compare (e * 2 ^ 52 + m) (f * 2 ^ 52 + n) := by
  rcases Int.lt_trichotomy e f with hlt | rfl | hgt
  · rw [Int.compare_eq_lt.mpr hlt, Int.compare_eq_lt.mpr (by omega)]
    rfl
  · rw [Int.compare_eq_eq.mpr rfl]
    rcases Nat.lt_trichotomy m n with hlt | rfl | hgt
    · rw [Nat.compare_eq_lt.mpr hlt, Int.compare_eq_lt.mpr (by omega)]
      rfl
    · rw [Nat.compare_eq_eq.mpr rfl, Int.compare_eq_eq.mpr rfl]
      rfl
    · rw [Nat.compare_eq_gt.mpr hgt, Int.compare_eq_gt.mpr (by omega)]
      rfl
  · rw [Int.compare_eq_gt.mpr hgt, Int.compare_eq_gt.mpr (by omega)]
    rfl

theorem dvd_significand (n : Nat) : 2 ^ (52 - n.log2) ∣ significand n := by
  rcases Nat.le_total n.log2 52 with hle | hge
  · rw [significand_of_le hle]
    exact Nat.dvd_mul_left ..
  · rw [Nat.sub_eq_zero_of_le hge]
    exact Nat.one_dvd _

/-- The float of a word that is not zero is a normal one, at the rank of the
word. -/
theorem exists_parts_toFloat {n : UInt64} (hn : 0 < n.toNat) :
    ∃ m e hm, parts n.toFloat = .finite .positive m e hm ∧ 2 ^ 52 ≤ m ∧ m < 2 ^ 53 ∧
      e * 2 ^ 52 + m = rank n.toNat ∧ OnGrid 0 (parts n.toFloat) := by
  have hrounded := isRounded_normalize hn
  have hcanonical := canonical_normalize n.toNat 0 .positive
  obtain ⟨hge, hle⟩ := significand_bounds hn
  have hlog := log2_lt_of_lt n.toNat_lt (by decide)
  have hdvd := dvd_significand n.toNat
  rw [parts_toFloat]
  generalize UnpackedFloat.normalize .binary64 n.toNat 0 .positive = u at hrounded hcanonical
  cases hrounded with
  | zero h => omega
  | fits h hr =>
      rw [unpack_pack_of_le hcanonical (by omega)]
      refine ⟨_, _, h, rfl, hge, hr, rfl, ?_⟩
      have hsame : (0 - ((n.toNat.log2 : Int) - 52)).toNat = 52 - n.toNat.log2 := by omega
      rw [OnGrid, hsame]
      exact hdvd
  | carried hr =>
      rw [unpack_pack_of_le hcanonical (by omega)]
      refine ⟨_, _, by decide, rfl, by decide, by decide, ?_, ?_⟩
      · rw [rank, hr]
        omega
      · exact Nat.pow_dvd_pow 2 (by omega)

theorem parts_toFloat_of_eq_zero {n : UInt64} (hn : n.toNat = 0) :
    parts n.toFloat = .zero .positive := by
  rw [parts_toFloat, hn]
  rfl

theorem onGrid_parts_toFloat (n : UInt64) : OnGrid 0 (parts n.toFloat) := by
  rcases Nat.eq_zero_or_pos n.toNat with hzero | hpos
  · rw [parts_toFloat_of_eq_zero hzero]
    trivial
  · obtain ⟨-, -, -, -, -, -, -, h⟩ := exists_parts_toFloat hpos
    exact h

theorem compare_toFloat {m n : UInt64} (hm : 0 < m.toNat) (hn : 0 < n.toNat) :
    (parts m.toFloat).compare (parts n.toFloat) =
      some (compare (rank m.toNat) (rank n.toNat)) := by
  obtain ⟨a, e, ha, hparts, hge, hlt, hrank, -⟩ := exists_parts_toFloat hm
  obtain ⟨b, f, hb, hparts', hge', hlt', hrank', -⟩ := exists_parts_toFloat hn
  rw [hparts, hparts', ← hrank, ← hrank', ← compare_eq_compare_rank hge hlt hge' hlt']
  rfl

theorem toFloat_lt_of_eq_zero {m n : UInt64} (hm : m.toNat = 0) (hn : 0 < n.toNat) :
    m.toFloat < n.toFloat := by
  obtain ⟨b, f, hb, hparts, -⟩ := exists_parts_toFloat hn
  rw [lt_iff, parts_toFloat_of_eq_zero hm, hparts]
  rfl

/-- The larger of two words is never the smaller float, -/
theorem toFloat_lt_or_beq {m n : UInt64} (h : m < n) :
    m.toFloat < n.toFloat ∨ (m.toFloat == n.toFloat) := by
  have hlt : m.toNat < n.toNat := h
  rcases Nat.eq_zero_or_pos m.toNat with hzero | hpos
  · exact .inl (toFloat_lt_of_eq_zero hzero (by omega))
  · rw [lt_iff, beq_iff, compare_toFloat hpos (by omega)]
    rcases Int.lt_or_eq_of_le (rank_mono hpos (Nat.le_of_lt hlt)) with hrank | hrank
    · exact .inl (congrArg some (Int.compare_eq_lt.mpr hrank))
    · exact .inr (congrArg some (Int.compare_eq_eq.mpr hrank))

/-- and it is the larger one if the smaller word is short, or the two are
far enough apart. -/
theorem toFloat_lt {m n : UInt64} (h : m < n)
    (hshows : m.toNat < 2 ^ 53 ∨ m.toNat + 2 ^ 12 ≤ n.toNat) : m.toFloat < n.toFloat := by
  have hlt : m.toNat < n.toNat := h
  rcases Nat.eq_zero_or_pos m.toNat with hzero | hpos
  · exact toFloat_lt_of_eq_zero hzero (by omega)
  · have hrank : rank m.toNat < rank n.toNat := by
      rcases hshows with hshort | hfar
      · exact rank_lt_of_short hpos hlt hshort
      · exact rank_lt_of_far hpos hfar n.toNat_lt
    rw [lt_iff, compare_toFloat hpos (by omega), Int.compare_eq_lt.mpr hrank]

theorem not_toFloat_lt {m n : UInt64} (h : m < n) : ¬ n.toFloat < m.toFloat := by
  have hlt : m.toNat < n.toNat := h
  rw [lt_iff]
  rcases Nat.eq_zero_or_pos m.toNat with hzero | hpos
  · obtain ⟨b, f, hb, hparts, -⟩ := @exists_parts_toFloat n (by omega)
    rw [parts_toFloat_of_eq_zero hzero, hparts]
    exact fun hgt => nomatch hgt
  · rw [compare_toFloat (by omega) hpos]
    intro hgt
    have hback := Int.compare_eq_lt.mp (Option.some.inj hgt)
    have hrank := rank_mono hpos (Nat.le_of_lt hlt)
    omega

theorem not_beq_of_lt {x y : Float} (h : x < y) : ¬ (x == y) := by
  rw [lt_iff] at h
  rw [beq_iff, h]
  simp

/-- Two words with one float have the same one. -/
theorem parts_toFloat_of_beq {m n : UInt64} (h : m.toFloat == n.toFloat) :
    parts m.toFloat = parts n.toFloat := by
  rw [beq_iff] at h
  rcases Nat.eq_zero_or_pos m.toNat with hm | hm
  · rw [parts_toFloat_of_eq_zero hm] at h ⊢
    rcases Nat.eq_zero_or_pos n.toNat with hn | hn
    · rw [parts_toFloat_of_eq_zero hn]
    · obtain ⟨b, f, hb, hparts, -⟩ := exists_parts_toFloat hn
      rw [hparts] at h
      cases h
  · obtain ⟨a, e, ha, hparts, -⟩ := exists_parts_toFloat hm
    rcases Nat.eq_zero_or_pos n.toNat with hn | hn
    · rw [hparts, parts_toFloat_of_eq_zero hn] at h
      cases h
    · obtain ⟨b, f, hb, hparts', -⟩ := exists_parts_toFloat hn
      rw [hparts, hparts'] at h ⊢
      obtain ⟨he, hab⟩ := Ordering.then_eq_eq.mp (Option.some.inj h)
      rw [UnpackedFloat.finite.injEq]
      exact ⟨rfl, Nat.compare_eq_eq.mp hab, Int.compare_eq_eq.mp he⟩

/-! ## Differences of words over a time -/

theorem sub_toFloat_of_beq {m n : UInt64} (h : m.toFloat == n.toFloat) :
    n.toFloat - m.toFloat = 0 := by
  have hsub : n.toFloat - m.toFloat =
      .ofModel (.pack (sub .binary64 (parts n.toFloat) (parts m.toFloat))) := rfl
  rw [hsub, parts_toFloat_of_beq h]
  rcases Nat.eq_zero_or_pos n.toNat with hn | hn
  · rw [parts_toFloat_of_eq_zero hn]
    rfl
  · obtain ⟨b, f, hb, hparts, -⟩ := exists_parts_toFloat hn
    rw [hparts]
    have hsame : sub .binary64 (.finite .positive b f hb) (.finite .positive b f hb) =
        UnpackedFloat.normalize .binary64 0 (min f f) .positive := by
      rw [← Int.sub_self (Sign.positive.apply (decreaseExponent b f (min f f)).1)]
      rfl
    rw [hsame]
    rfl

theorem zero_div_of_pos {t : Float} (hfinite : t.isFinite) (hpos : 0 < t) : 0 / t = 0 := by
  obtain ⟨n, f, hn, ht⟩ := parts_of_pos hfinite hpos
  have hdiv : 0 / t = .ofModel (.pack (div .binary64 (parts 0) (parts t))) := rfl
  rw [hdiv, ht]
  rfl

/-- Two words that are not the same float are one apart or more, and that is
not lost when it is divided by a time. -/
theorem zero_lt_sub_div {m n : UInt64} {t : Float} (h : m.toFloat < n.toFloat)
    (hfinite : t.isFinite) (hpos : 0 < t) : 0 < (n.toFloat - m.toFloat) / t :=
  zero_lt_div (above_parts_sub h (onGrid_parts_toFloat m) (onGrid_parts_toFloat n) (by decide))
    hfinite hpos

end LinkTelemetry.Binary64
