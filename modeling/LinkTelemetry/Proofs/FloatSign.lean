import LinkTelemetry.Rate
import Mathlib

/-!
# The sign of a difference and of a quotient

Subtraction and division of floats round, overflow and underflow, and still a
rate that ought not to be negative never is. The reason is that nothing on
the way touches a sign: rounding takes it as an argument and hands it on
(`sign?_roundWithAccuracy`), and so does the way through the 64 bits of the
result (`sign?_unpack_pack`). So it is enough to know the sign of the exact
difference, and for that the order of floats has to agree with the order of
what they stand for. It does because floats have one form each
(`Canonical`): the larger exponent then belongs to the larger magnitude.

What has no sign is a NaN, and a difference is one in two cases only, which
`sub_isNaN_iff` names: a side is a NaN, or both are the same infinity.

Words are never near the largest float. A bound on the exponent (`Below`) goes
the same way as the sign, so the float of a word is finite, also when the word
is read from its decimal digits (`ofScientific_whole`).
-/

namespace LinkTelemetry.Binary64

open Float.Model (Format UnpackedFloat totalExponent)
open Float.Model.UnpackedFloat

/-- What the bits of a float stand for. -/
def parts (x : Float) : UnpackedFloat := x.toModel.unpack

/-- The sign in front of a number. There is none in front of a NaN. -/
def sign? : UnpackedFloat → Option Sign
  | .notANumber => none
  | .infinity s | .zero s | .finite s .. => some s

/-! ## Rounding keeps the sign -/

theorem sign?_roundWithAccuracy (spec : Format) (s : Sign) (m : Nat) (e : Int) (a : Accuracy) :
    sign? (roundWithAccuracy spec s m e a) = some s := by
  simp only [roundWithAccuracy]
  split <;> rfl

theorem sign?_normalize (spec : Format) (m e : Int) :
    sign? (UnpackedFloat.normalize spec m e .positive) =
      some (if m < 0 then .negative else .positive) := by
  rw [UnpackedFloat.normalize]
  split
  · next hlt =>
      rw [if_pos (Int.compare_eq_lt.mp hlt)]
      exact sign?_roundWithAccuracy ..
  · next heq =>
      rw [Int.compare_eq_eq.mp heq]
      rfl
  · next hgt =>
      rw [if_neg (Int.lt_asymm (Int.compare_eq_gt.mp hgt))]
      exact sign?_roundWithAccuracy ..

/-! ## The bits keep the sign -/

/-- A finite number whose exponent is not above a bound. -/
inductive Below (b : Int) : UnpackedFloat → Prop where
  | zero (s : Sign) : Below b (.zero s)
  | finite {s : Sign} {m : Nat} {e : Int} {hm : 0 < m} (he : e ≤ b) : Below b (.finite s m e hm)

theorem Below.isFinite {b : Int} {u : UnpackedFloat} (h : Below b u) : u.isFinite := by
  cases h with
  | zero s => rfl
  | finite he => rfl

theorem Below.mono {b c : Int} {u : UnpackedFloat} (h : Below b u) (hbc : b ≤ c) : Below c u := by
  cases h with
  | zero s => exact .zero s
  | finite he => exact .finite (Int.le_trans he hbc)

/-- A pattern whose exponent is not the largest one stands for a finite
number. -/
theorem unpack_packComponents (s : Sign) {exponent : BitVec 11} (fraction : BitVec 52)
    (h : exponent ≠ -1#11) :
    sign? (unpack .binary64 (packComponents .binary64 s exponent fraction)) = some s ∧
      ∀ b, -1074 ≤ b → (exponent.toNat : Int) - 1075 ≤ b →
        Below b (unpack .binary64 (packComponents .binary64 s exponent fraction)) := by
  have hbias : Format.binary64.exponentBias = 1023 := rfl
  simp only [unpack, unpackMantissa_packComponents, unpackExponent_packComponents,
    unpackSign_packComponents, Sign.ofBitVec_toBitVec, hbias]
  rw [if_neg h]
  split
  · next hleast =>
      have hzero : exponent.toNat = 0 := by rw [hleast]; rfl
      split
      · exact ⟨rfl, fun _ _ _ => .zero s⟩
      · exact ⟨rfl, fun b hb _ => .finite (by omega)⟩
  · exact ⟨rfl, fun b _ hb => .finite (by omega)⟩

/-- A finite number keeps its sign when it is packed, and if its exponent
fits it stays finite. -/
theorem unpack_pack_finite (s : Sign) (m : Nat) (e : Int) (hm : 0 < m) :
    sign? (unpack .binary64 (pack .binary64 (.finite s m e hm))) = some s ∧
      ∀ b, -1074 ≤ b → b ≤ 971 → e ≤ b →
        Below b (unpack .binary64 (pack .binary64 (.finite s m e hm))) := by
  have hbias : Format.binary64.exponentBias = 1023 := rfl
  simp only [pack, hbias]
  split
  · next hover => exact ⟨by cases s <;> rfl, fun b _ _ _ => absurd hover (by omega)⟩
  · next hfits =>
      split
      · have hvalue : (BitVec.ofNat 11 (e + (1023 : Nat) + (52 : Nat)).toNat).toNat =
            (e + (1023 : Nat) + (52 : Nat)).toNat := by
          rw [BitVec.toNat_ofNat]
          exact Nat.mod_eq_of_lt (by omega)
        have hexponent : BitVec.ofNat 11 (e + (1023 : Nat) + (52 : Nat)).toNat ≠ -1#11 := by
          intro hfull
          have hmax : (-1#11).toNat = 2047 := rfl
          rw [hfull, hmax] at hvalue
          omega
        obtain ⟨hsign, hbelow⟩ := unpack_packComponents s (BitVec.ofNat 52 m) hexponent
        exact ⟨hsign, fun b hb _ he => hbelow b hb (by omega)⟩
      · obtain ⟨hsign, hbelow⟩ :=
          @unpack_packComponents s 0#11 (BitVec.ofNat 52 m) (by decide)
        exact ⟨hsign, fun b hb _ _ => hbelow b hb (show (0 : Int) - 1075 ≤ b by omega)⟩

theorem Below.unpack_pack {b : Int} {u : UnpackedFloat} (h : Below b u) (hb : -1074 ≤ b)
    (hb' : b ≤ 971) : Below b (unpack .binary64 (pack .binary64 u)) := by
  cases h with
  | zero s =>
      cases s with
      | negative => exact .zero .negative
      | positive => exact .zero .positive
  | @finite s m e hm he => exact (unpack_pack_finite s m e hm).2 b hb hb' he

theorem sign?_unpack_pack (u : UnpackedFloat) :
    sign? (unpack .binary64 (pack .binary64 u)) = sign? u := by
  cases u with
  | notANumber => rfl
  | infinity s => cases s <;> rfl
  | zero s => cases s <;> rfl
  | finite s m e hm => exact (unpack_pack_finite s m e hm).1

/-! ## Canonical form -/

/-- The one form in which a finite number is stored. -/
def Canonical : UnpackedFloat → Prop
  | .finite _ m e _ => -1074 ≤ e ∧ m < 2 ^ 53 ∧ (-1074 < e → 2 ^ 52 ≤ m)
  | _ => True

/-- The leading one of a normal number, which is not stored. -/
theorem toNat_implicit (fraction : BitVec 52) :
    (1#1 ++ fraction).toNat = 2 ^ 52 + fraction.toNat := by
  rw [BitVec.toNat_append, ← Nat.shiftLeft_add_eq_or_of_lt fraction.isLt]
  rfl

theorem canonical_unpack (bits : BitVec 64) : Canonical (unpack .binary64 bits) := by
  have hbias : Format.binary64.exponentBias = 1023 := rfl
  have hfraction : (@unpackMantissa .binary64 bits).toNat < 2 ^ 52 := BitVec.isLt _
  simp only [unpack]
  split
  · split <;> trivial
  · split
    · next hleast =>
        split
        · trivial
        · have hzero : (@unpackExponent .binary64 bits).toNat = 0 := by
            rw [hleast]
            rfl
          rw [Canonical, hbias, hzero]
          omega
    · next hnormal =>
        have hpos : 0 < (@unpackExponent .binary64 bits).toNat := by
          rw [BitVec.toNat_pos, BitVec.pos_iff_ne_zero]
          exact hnormal
        rw [Canonical, hbias, toNat_implicit]
        omega

/-- Magnitudes in canonical form, brought to one exponent, are in the order
of their exponents and mantissas. -/
theorem decreased_lt_of_compare_eq_lt {m n : Nat} {e f : Int} (hm : m < 2 ^ 53)
    (hnormal : e < f → 2 ^ 52 ≤ n) (h : (compare e f).then (compare m n) = .lt) :
    (decreaseExponent m e (min e f)).1 < (decreaseExponent n f (min e f)).1 := by
  simp only [decreaseExponent, Nat.shiftLeft_eq]
  rcases Int.lt_trichotomy e f with hlt | rfl | hgt
  · have hn := hnormal hlt
    have hsmall : (e - min e f).toNat = 0 := by omega
    obtain ⟨d, hd⟩ : ∃ d, (f - min e f).toNat = d + 1 := ⟨(f - min e f).toNat - 1, by omega⟩
    have hpow : 2 ≤ 2 ^ (d + 1) := by
      have hpos := Nat.two_pow_pos d
      rw [Nat.pow_succ]
      omega
    rw [hsmall, hd]
    calc m * 2 ^ 0 < 2 ^ 52 * 2 := by omega
      _ ≤ n * 2 ^ (d + 1) := Nat.mul_le_mul hn hpow
  · rw [Int.compare_eq_eq.mpr rfl] at h
    exact Nat.mul_lt_mul_of_pos_right (Nat.compare_eq_lt.mp h) (Nat.two_pow_pos _)
  · rw [Int.compare_eq_gt.mpr hgt] at h
    cases h

theorem decreased_le_of_compare_ne_lt {m n : Nat} {e f : Int} (hn : n < 2 ^ 53)
    (hnormal : f < e → 2 ^ 52 ≤ m) (h : (compare e f).then (compare m n) ≠ .lt) :
    (decreaseExponent n f (min e f)).1 ≤ (decreaseExponent m e (min e f)).1 := by
  cases horder : (compare e f).then (compare m n) with
  | lt => exact absurd horder h
  | eq =>
      obtain ⟨hef, hmn⟩ := Ordering.then_eq_eq.mp horder
      rw [Int.compare_eq_eq.mp hef, Nat.compare_eq_eq.mp hmn]
  | gt =>
      have hswap : (compare f e).then (compare n m) = .lt := by
        rw [← Int.compare_swap, ← Nat.compare_swap, ← Ordering.swap_then, horder]
        rfl
      rw [Int.min_comm e f]
      exact Nat.le_of_lt (decreased_lt_of_compare_eq_lt hn hnormal hswap)

/-! ## Differences -/

/-- A number that is not below zero. Neither of the zeros is. -/
def NonNeg (u : UnpackedFloat) : Prop := sign? u = some .positive ∨ ∃ s, u = .zero s

theorem NonNeg.unpack_pack {u : UnpackedFloat} (h : NonNeg u) :
    NonNeg (unpack .binary64 (pack .binary64 u)) := by
  obtain hsign | ⟨s, rfl⟩ := h
  · exact .inl ((sign?_unpack_pack u).trans hsign)
  · cases s with
    | negative => exact .inr ⟨.negative, rfl⟩
    | positive => exact .inr ⟨.positive, rfl⟩

theorem sub_eq_notANumber_iff {a b : UnpackedFloat} :
    sub .binary64 a b = .notANumber ↔
      a = .notANumber ∨ b = .notANumber ∨ ∃ s, a = .infinity s ∧ b = .infinity s := by
  have hnormalize : ∀ m e, UnpackedFloat.normalize .binary64 m e .positive ≠ .notANumber := by
    intro m e h
    have hsign := sign?_normalize .binary64 m e
    rw [h] at hsign
    cases hsign
  cases a with
  | notANumber => simp [sub]
  | infinity s =>
      cases b with
      | infinity t => cases s <;> cases t <;> simp [sub] <;> rfl
      | _ => simp [sub]
  | zero s =>
      cases b with
      | zero t => simp only [sub]; split <;> simp
      | _ => simp [sub]
  | finite s m e hm =>
      cases b with
      | finite t n f hn => simp [sub, hnormalize]
      | _ => simp [sub]

theorem nonNeg_sub_zeros (s t : Sign) : NonNeg (sub .binary64 (.zero s) (.zero t)) := by
  simp only [sub]
  split
  · exact .inr ⟨s, rfl⟩
  · exact .inl rfl

theorem nonNeg_sub_finite {s t : Sign} {m n : Nat} {e f : Int} {hm : 0 < m} {hn : 0 < n}
    (ha : Canonical (.finite s m e hm)) (hb : Canonical (.finite t n f hn))
    (h : (UnpackedFloat.finite s m e hm).compare (.finite t n f hn) ≠ some .lt) :
    NonNeg (sub .binary64 (.finite s m e hm) (.finite t n f hn)) := by
  obtain ⟨hae, ham, hanormal⟩ := ha
  obtain ⟨hbe, hbm, hbnormal⟩ := hb
  have hsub : sub .binary64 (.finite s m e hm) (.finite t n f hn) =
      UnpackedFloat.normalize .binary64 (s.apply (decreaseExponent m e (min e f)).1 -
        t.apply (decreaseExponent n f (min e f)).1) (min e f) .positive := rfl
  have hexact : 0 ≤ s.apply (decreaseExponent m e (min e f)).1 -
      t.apply (decreaseExponent n f (min e f)).1 := by
    cases s with
    | negative =>
        cases t with
        | negative =>
            have hswap : (compare f e).then (compare n m) ≠ .lt := by
              intro hlt
              refine h (congrArg some ?_)
              rw [Ordering.swap_then, Int.compare_swap, Nat.compare_swap]
              exact hlt
            have hle := decreased_le_of_compare_ne_lt ham (fun hlt => hbnormal (by omega)) hswap
            rw [Int.min_comm f e] at hle
            simp only [Sign.apply]
            omega
        | positive => exact absurd rfl h
    | positive =>
        cases t with
        | negative =>
            simp only [Sign.apply]
            omega
        | positive =>
            have hle := decreased_le_of_compare_ne_lt hbm (fun hlt => hanormal (by omega))
              fun hlt => h (congrArg some hlt)
            simp only [Sign.apply]
            omega
  rw [hsub]
  left
  rw [sign?_normalize, if_neg (by omega)]

/-- A difference is not below zero unless the first side is below the second,
or it is a NaN. -/
theorem nonNeg_sub {a b : UnpackedFloat} (ha : Canonical a) (hb : Canonical b)
    (h : a.compare b ≠ some .lt) :
    sub .binary64 a b = .notANumber ∨ NonNeg (sub .binary64 a b) := by
  cases a with
  | notANumber => exact .inl rfl
  | infinity s =>
      cases s with
      | negative =>
          cases b with
          | notANumber => exact .inl rfl
          | infinity t =>
              cases t with
              | negative => exact .inl rfl
              | positive => exact absurd rfl h
          | zero t => exact absurd rfl h
          | finite t n f hn => exact absurd rfl h
      | positive =>
          cases b with
          | notANumber => exact .inl rfl
          | infinity t =>
              cases t with
              | negative => exact .inr (.inl rfl)
              | positive => exact .inl rfl
          | zero t => exact .inr (.inl rfl)
          | finite t n f hn => exact .inr (.inl rfl)
  | zero s =>
      cases b with
      | notANumber => exact .inl rfl
      | infinity t =>
          cases t with
          | negative => exact .inr (.inl rfl)
          | positive => exact absurd rfl h
      | zero t => exact .inr (nonNeg_sub_zeros s t)
      | finite t n f hn =>
          cases t with
          | negative => exact .inr (.inl rfl)
          | positive => exact absurd rfl h
  | finite s m e hm =>
      cases b with
      | notANumber => exact .inl rfl
      | infinity t =>
          cases t with
          | negative => exact .inr (.inl rfl)
          | positive => exact absurd rfl h
      | zero t =>
          cases s with
          | negative => exact absurd rfl h
          | positive => exact .inr (.inl rfl)
      | finite t n f hn => exact .inr (nonNeg_sub_finite ha hb h)

/-! ## Quotients and products -/

theorem nonNeg_div {a : UnpackedFloat} (ha : NonNeg a) (m : Nat) (e : Int) (hm : 0 < m) :
    NonNeg (div .binary64 a (.finite .positive m e hm)) := by
  obtain hsign | ⟨s, rfl⟩ := ha
  · cases a with
    | notANumber => cases hsign
    | infinity s => cases hsign; exact .inl rfl
    | zero s => exact .inr ⟨_, rfl⟩
    | finite s n f hn => cases hsign; exact .inl (sign?_roundWithAccuracy ..)
  · exact .inr ⟨_, rfl⟩

theorem nonNeg_mul {a : UnpackedFloat} (ha : NonNeg a) (m : Nat) (e : Int) (hm : 0 < m) :
    NonNeg (mul .binary64 a (.finite .positive m e hm)) := by
  obtain hsign | ⟨s, rfl⟩ := ha
  · cases a with
    | notANumber => cases hsign
    | infinity s => cases hsign; exact .inl rfl
    | zero s => exact .inr ⟨_, rfl⟩
    | finite s n f hn => cases hsign; exact .inl (sign?_roundWithAccuracy ..)
  · exact .inr ⟨_, rfl⟩

/-! ## Floats -/

theorem canonical_parts (x : Float) : Canonical (parts x) := canonical_unpack _

theorem parts_zero : parts 0 = .zero .positive := rfl

theorem parts_sub (x y : Float) :
    parts (x - y) = unpack .binary64 (pack .binary64 (sub .binary64 (parts x) (parts y))) := rfl

theorem parts_div (x y : Float) :
    parts (x / y) = unpack .binary64 (pack .binary64 (div .binary64 (parts x) (parts y))) := rfl

theorem parts_mul (x y : Float) :
    parts (x * y) = unpack .binary64 (pack .binary64 (mul .binary64 (parts x) (parts y))) := rfl

theorem le_iff (x y : Float) : x ≤ y ↔ (parts x).le (parts y) := decide_eq_true_iff

theorem lt_iff (x y : Float) : x < y ↔ (parts x).compare (parts y) = some .lt := by
  have hlt : x < y ↔ (parts x).lt (parts y) := decide_eq_true_iff
  rw [hlt, UnpackedFloat.lt, beq_iff_eq]

theorem beq_iff (x y : Float) : (x == y) ↔ (parts x).compare (parts y) = some .eq := by
  have hbeq : (x == y) ↔ (parts x).beq (parts y) := Iff.rfl
  rw [hbeq, UnpackedFloat.beq, beq_iff_eq]

theorem isNaN_iff (x : Float) : x.isNaN ↔ sign? (parts x) = none := by
  show (parts x).isNaN ↔ _
  cases parts x <;> simp [isNaN, sign?]

theorem isInf_iff (x : Float) : x.isInf ↔ ∃ s, parts x = .infinity s := by
  show (parts x).isInf ↔ _
  cases parts x <;> simp [isInf]

theorem not_isNaN_of_isFinite {x : Float} (h : x.isFinite) : ¬ x.isNaN := by
  have hfinite : (parts x).isFinite := h
  rw [isNaN_iff]
  cases hx : parts x with
  | notANumber => rw [hx] at hfinite; cases hfinite
  | _ => simp [sign?]

theorem not_isInf_of_isFinite {x : Float} (h : x.isFinite) : ¬ x.isInf := by
  have hfinite : (parts x).isFinite := h
  rw [isInf_iff]
  rintro ⟨s, hs⟩
  rw [hs] at hfinite
  cases hfinite

theorem zero_le_iff (x : Float) : 0 ≤ x ↔ NonNeg (parts x) := by
  rw [le_iff, parts_zero, NonNeg]
  cases parts x with
  | notANumber => simp [UnpackedFloat.le, UnpackedFloat.compare, sign?]
  | infinity s => cases s <;> simp [UnpackedFloat.le, UnpackedFloat.compare, sign?]
  | zero s => simp [UnpackedFloat.le, UnpackedFloat.compare]
  | finite s m e hm => cases s <;> simp [UnpackedFloat.le, UnpackedFloat.compare, sign?]

theorem not_zero_le_of_isNaN {x : Float} (h : x.isNaN) : ¬ 0 ≤ x := by
  rw [isNaN_iff] at h
  rw [zero_le_iff]
  rintro (hsign | ⟨s, hzero⟩)
  · rw [h] at hsign
    cases hsign
  · rw [hzero] at h
    cases h

theorem not_lt_zero_of_zero_le {x : Float} (h : 0 ≤ x) : ¬ x < 0 := by
  rw [zero_le_iff] at h
  rw [lt_iff, parts_zero]
  obtain hsign | ⟨s, hzero⟩ := h
  · cases hx : parts x with
    | notANumber => rw [hx] at hsign; cases hsign
    | infinity s => rw [hx] at hsign; cases hsign; simp [UnpackedFloat.compare]
    | zero s => simp [UnpackedFloat.compare]
    | finite s m e hm => rw [hx] at hsign; cases hsign; simp [UnpackedFloat.compare]
  · rw [hzero]
    simp [UnpackedFloat.compare]

theorem not_lt_zero_of_isNaN {x : Float} (h : x.isNaN) : ¬ x < 0 := by
  rw [isNaN_iff] at h
  rw [lt_iff, parts_zero]
  cases hx : parts x with
  | notANumber => simp [UnpackedFloat.compare]
  | _ => rw [hx] at h; cases h

theorem parts_of_pos {x : Float} (hfinite : x.isFinite) (hpos : 0 < x) :
    ∃ m e hm, parts x = .finite .positive m e hm := by
  have hfin : (parts x).isFinite := hfinite
  rw [lt_iff, parts_zero] at hpos
  cases hx : parts x with
  | notANumber => rw [hx] at hfin; cases hfin
  | infinity s => rw [hx] at hfin; cases hfin
  | zero s => rw [hx] at hpos; cases hpos
  | finite s m e hm =>
      cases s with
      | negative => rw [hx] at hpos; cases hpos
      | positive => exact ⟨m, e, hm, rfl⟩

/-- A difference is a NaN if one side is, or if both are the same infinity. -/
theorem sub_isNaN_iff (x y : Float) :
    (x - y).isNaN ↔ x.isNaN ∨ y.isNaN ∨ x.isInf ∧ (x == y) := by
  have hnone : ∀ u : UnpackedFloat, sign? u = none ↔ u = .notANumber := by
    intro u
    cases u <;> simp [sign?]
  rw [isNaN_iff, isNaN_iff, isNaN_iff, isInf_iff, beq_iff, parts_sub, sign?_unpack_pack, hnone,
    hnone, hnone, sub_eq_notANumber_iff]
  refine or_congr_right (or_congr_right ?_)
  constructor
  · rintro ⟨s, hx, hy⟩
    refine ⟨⟨s, hx⟩, ?_⟩
    rw [hx, hy]
    cases s <;> rfl
  · rintro ⟨⟨s, hx⟩, heq⟩
    refine ⟨s, hx, ?_⟩
    rw [hx] at heq
    cases hy : parts y with
    | infinity t =>
        rw [hy] at heq
        cases s <;> cases t <;> first | rfl | cases heq
    | _ => rw [hy] at heq; cases s <;> cases heq

/-- Without a difference there is no order either. -/
theorem not_lt_of_sub_isNaN {x y : Float} (h : (x - y).isNaN) : ¬ x < y := by
  rw [sub_isNaN_iff, isNaN_iff, isNaN_iff, beq_iff] at h
  rw [lt_iff]
  rcases h with hx | hy | ⟨-, heq⟩
  · cases hparts : parts x with
    | notANumber => simp [UnpackedFloat.compare]
    | _ => rw [hparts] at hx; cases hx
  · cases hparts : parts y with
    | notANumber => cases parts x <;> simp [UnpackedFloat.compare]
    | _ => rw [hparts] at hy; cases hy
  · rw [heq]
    simp

/-- A difference that is a NaN stays one when it is divided. -/
theorem div_isNaN_of_isNaN {x : Float} (h : x.isNaN) (y : Float) : (x / y).isNaN := by
  rw [isNaN_iff] at h ⊢
  rw [parts_div, sign?_unpack_pack]
  cases hx : parts x with
  | notANumber => rfl
  | _ => rw [hx] at h; cases h

/-- The quotient of a difference that the order puts at zero or above. -/
theorem zero_le_sub_div {x y t : Float} (hxy : ¬ x < y) (hnan : ¬ (x - y).isNaN)
    (hfinite : t.isFinite) (hpos : 0 < t) : 0 ≤ (x - y) / t := by
  obtain ⟨m, e, hm, ht⟩ := parts_of_pos hfinite hpos
  rw [lt_iff] at hxy
  rw [zero_le_iff, parts_div, ht, parts_sub]
  refine (nonNeg_div ?_ m e hm).unpack_pack
  refine NonNeg.unpack_pack ?_
  refine (nonNeg_sub (canonical_parts x) (canonical_parts y) hxy).resolve_left fun h => hnan ?_
  rw [isNaN_iff, parts_sub, h]
  rfl

/-! ## Whole numbers are finite and not negative

A word of 64 bits is far below the largest float, so crude bounds do: rounding
adds one at most, and the exponent grows with the length of the mantissa. -/

theorem log2_mono {m n : Nat} (h : m ≤ n) : m.log2 ≤ n.log2 := by
  rw [Nat.log2_eq_log_two, Nat.log2_eq_log_two]
  exact Nat.log_mono_right h

theorem log2_le_of_le {m k : Nat} (h : m ≤ 2 ^ k) : m.log2 ≤ k :=
  Nat.le_trans (log2_mono h) (Nat.le_of_eq Nat.log2_two_pow)

theorem exponent_shiftToTargetExponent (m : Nat) (e : Int) (a : Accuracy) :
    (shiftToTargetExponent .binary64 m e a).2 =
      max e (max ((m.log2 : Int) + 1 + e - 53) (-1074)) := by
  have hbits : Format.binary64.mantissaBits = 53 := rfl
  have hmin : Format.binary64.minExponent = -1074 := rfl
  simp only [shiftToTargetExponent, shiftToExponent, Format.targetExponent, totalExponent, hbits,
    hmin]
  omega

theorem mantissa_shiftRight_le (em : ExtendedMantissa) (k : Nat) :
    (em >>> k).mantissa ≤ em.mantissa := by
  induction k with
  | zero => exact Nat.le_refl _
  | succ k ih => exact Nat.le_trans (Nat.div_le_self ..) ih

theorem roundToNearestEven_le (m : Nat) (a : Accuracy) : a.roundToNearestEven m ≤ m + 1 := by
  cases a with
  | exact => exact Nat.le_succ m
  | inexact o =>
      cases o with
      | lt => exact Nat.le_succ m
      | eq => exact Nat.add_le_add_left (Nat.le_of_lt_succ (Nat.mod_lt m (by decide))) m
      | gt => exact Nat.le_refl _

theorem below_roundWithAccuracy (s : Sign) {m k : Nat} {e b : Int} (hm : m < 2 ^ k) (he : e ≤ b)
    (hb : -1074 ≤ b) : Below (b + 2 * k) (roundWithAccuracy .binary64 s m e .exact) := by
  have hstart := exponent_shiftToTargetExponent m e .exact
  have hrounded : (shiftToTargetExponent .binary64 m e .exact).1.roundedMantissa ≤ m + 1 :=
    Nat.le_trans (roundToNearestEven_le ..)
      (Nat.add_le_add_right (mantissa_shiftRight_le ..) 1)
  have hlog := log2_le_of_le (Nat.le_of_lt hm)
  have hlog' := log2_le_of_le (Nat.le_trans hrounded hm)
  simp only [roundWithAccuracy]
  split
  · exact .zero s
  · refine .finite ?_
    rw [exponent_shiftToTargetExponent, hstart]
    omega

theorem shiftLeft_lt {n : Nat} (hn : n < 2 ^ 64) : n <<< (52 - n.log2) < 2 ^ 64 := by
  rw [Nat.shiftLeft_eq]
  rcases Nat.lt_or_ge n.log2 52 with hshort | hlong
  · have hpow : 2 ^ (n.log2 + 1) * 2 ^ (52 - n.log2) = 2 ^ 53 := by
      rw [← Nat.pow_add]
      congr 1
      omega
    have hlt : n * 2 ^ (52 - n.log2) < 2 ^ 53 := by
      rw [← hpow]
      exact Nat.mul_lt_mul_of_pos_right Nat.lt_log2_self (Nat.two_pow_pos _)
    omega
  · rw [Nat.sub_eq_zero_of_le hlong, Nat.pow_zero, Nat.mul_one]
    exact hn

theorem parts_toFloat (n : UInt64) :
    parts n.toFloat =
      unpack .binary64 (pack .binary64 (UnpackedFloat.normalize .binary64 n.toNat 0 .positive)) :=
  rfl

theorem below_parts_toFloat (n : UInt64) : Below 128 (parts n.toFloat) := by
  have hn : n.toNat < 2 ^ 64 := n.toNat_lt
  rw [parts_toFloat]
  refine Below.unpack_pack ?_ (by decide) (by decide)
  rw [UnpackedFloat.normalize]
  split
  · next hlt => exact absurd (Int.compare_eq_lt.mp hlt) (by omega)
  · exact .zero .positive
  · have hshift : ((0 : Int) - Format.binary64.targetExponent (totalExponent n.toNat 0)).toNat =
        52 - n.toNat.log2 := by
      have hbits : Format.binary64.mantissaBits = 53 := rfl
      have hmin : Format.binary64.minExponent = -1074 := rfl
      simp only [Format.targetExponent, totalExponent, hbits, hmin]
      omega
    simp only [UnpackedFloat.round, decreaseExponent, Int.toNat_natCast, hshift]
    exact @below_roundWithAccuracy .positive _ 64 _ 0 (shiftLeft_lt hn) (by omega) (by decide)

/-- The float of a word is a number. -/
theorem isFinite_toFloat (n : UInt64) : n.toFloat.isFinite := (below_parts_toFloat n).isFinite

theorem nonNeg_parts_toFloat (n : UInt64) : NonNeg (parts n.toFloat) := by
  rw [parts_toFloat]
  refine NonNeg.unpack_pack (.inl ?_)
  rw [sign?_normalize, if_neg (by omega)]

theorem zero_le_toFloat (n : UInt64) : 0 ≤ n.toFloat :=
  (zero_le_iff _).mpr (nonNeg_parts_toFloat n)

/-! A whole number written in decimal is a product with the power of ten
zero, so it takes one more rounding. -/

theorem below_mul {a b : UnpackedFloat} {x y : Int} (ha : Canonical a) (hb : Canonical b)
    (hax : Below x a) (hby : Below y b) (hxy : -1074 ≤ x + y) :
    Below (x + y + 212) (mul .binary64 a b) := by
  cases hax with
  | zero s =>
      cases hby with
      | zero t => exact .zero _
      | finite hf => exact .zero _
  | @finite s m e hm he =>
      cases hby with
      | zero t => exact .zero _
      | @finite t n f hn hf =>
          have hmn : m * n < 2 ^ 106 := by
            calc m * n < 2 ^ 53 * 2 ^ 53 := Nat.mul_lt_mul'' ha.2.1 hb.2.1
              _ = 2 ^ 106 := by decide
          exact below_roundWithAccuracy _ hmn (Int.add_le_add he hf) hxy

theorem below_ofScientific {n : Nat} (hn : n < 2 ^ 64) :
    Below 971 (ofScientific .binary64 n 0) ∧ NonNeg (ofScientific .binary64 n 0) := by
  have hbits : (2 : Int) ^ Format.binary64.exponentBits = 2048 := rfl
  have hmantissa : n <<< Format.binary64.mantissaBits * 10 ^ (0 : Int).toNat < 2 ^ 117 := by
    have hone : 10 ^ (0 : Int).toNat = 1 := rfl
    have hwidth : Format.binary64.mantissaBits = 53 := rfl
    rw [hone, hwidth, Nat.shiftLeft_eq]
    omega
  rw [ofScientific, hbits]
  split
  · exact ⟨.zero .positive, .inl rfl⟩
  · rw [if_neg (by decide), if_neg (by omega), if_pos (by decide), mul]
    have hbelow := below_roundWithAccuracy (.positive * .positive) hmantissa
      (e := -(Format.binary64.mantissaBits : Int) + 0) (b := 0) (by decide) (by decide)
    exact ⟨hbelow.mono (by decide), .inl (sign?_roundWithAccuracy ..)⟩

/-- A decimal numeral of a word denotes a number that is not negative. -/
theorem ofScientific_whole {n : Nat} (hn : n < 2 ^ 64) :
    (Float.ofScientific n false 0).isFinite ∧ 0 ≤ Float.ofScientific n false 0 := by
  have hfloat : ∀ x : Float, Below 971 (parts x) → NonNeg (parts x) → x.isFinite ∧ 0 ≤ x :=
    fun x hbelow hsign => ⟨hbelow.isFinite, (zero_le_iff x).mpr hsign⟩
  rw [Float.ofScientific]
  split
  · have hone : parts Float.exactlyRepresentablePowersOfTen[0] =
        .finite .positive (2 ^ 52) (-52) (by decide) := rfl
    have hbelow : Below (-52) (parts Float.exactlyRepresentablePowersOfTen[0]) := by
      rw [hone]
      exact .finite (Int.le_refl _)
    refine hfloat (n.toUInt64.toFloat * Float.exactlyRepresentablePowersOfTen[0]) ?_ ?_
    · rw [parts_mul]
      refine Below.unpack_pack ?_ (by decide) (by decide)
      exact (below_mul (canonical_parts _) (canonical_parts _) (below_parts_toFloat _) hbelow
        (by decide)).mono (by decide)
    · rw [parts_mul, hone]
      exact (nonNeg_mul (nonNeg_parts_toFloat _) ..).unpack_pack
  · obtain ⟨hbelow, hsign⟩ := below_ofScientific hn
    exact hfloat (.ofModel (.ofScientific n 0)) (hbelow.unpack_pack (by decide) (by decide))
      hsign.unpack_pack

end LinkTelemetry.Binary64
