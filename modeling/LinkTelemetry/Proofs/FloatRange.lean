import LinkTelemetry.Proofs.FloatSign

/-!
# Floats between bounds

Floats that are numbers are ordered like numbers: of two of them one is at most
the other (`le_of_not_lt`). A float between finite bounds is finite, and adding
to it gives a number again unless what is added is none (`not_isNaN_add`). So
nothing that moves by steps and is then brought back between finite bounds can
become a NaN, however long it goes on.
-/

namespace LinkTelemetry.Binary64

open Float.Model (Format UnpackedFloat)
open Float.Model.UnpackedFloat

/-! ## The order -/

theorem compare_swap (a b : UnpackedFloat) : b.compare a = (a.compare b).map Ordering.swap := by
  have hsign : ∀ s t : Sign, compare t s = (compare s t).swap := by
    intro s t
    cases s <;> cases t <;> rfl
  have hmagnitude : ∀ (m n : Nat) (e f : Int),
      (compare f e).then (compare n m) = ((compare e f).then (compare m n)).swap := by
    intro m n e f
    rw [Ordering.swap_then, ← Std.OrientedCmp.eq_swap, ← Std.OrientedCmp.eq_swap]
  cases a with
  | notANumber => cases b <;> rfl
  | infinity s =>
      cases b with
      | infinity t => simp only [UnpackedFloat.compare, Option.map_some, hsign s t]
      | _ => cases s <;> rfl
  | zero s =>
      cases b with
      | infinity t => cases t <;> rfl
      | finite t n f hn => cases t <;> rfl
      | _ => rfl
  | finite s m e hm =>
      cases b with
      | infinity t => cases s <;> cases t <;> rfl
      | finite t n f hn =>
          cases s <;> cases t <;>
            simp only [UnpackedFloat.compare, Option.map_some, hmagnitude m n e f] <;> rfl
      | _ => cases s <;> rfl

theorem compare_eq_none_iff {a b : UnpackedFloat} :
    a.compare b = none ↔ sign? a = none ∨ sign? b = none := by
  cases a with
  | notANumber => simp [UnpackedFloat.compare, sign?]
  | infinity s => cases b <;> cases s <;> simp [UnpackedFloat.compare, sign?]
  | zero s =>
      cases b with
      | infinity t => cases t <;> simp [UnpackedFloat.compare, sign?]
      | finite t n f hn => cases t <;> simp [UnpackedFloat.compare, sign?]
      | _ => simp [UnpackedFloat.compare, sign?]
  | finite s m e hm =>
      cases b with
      | infinity t => cases s <;> cases t <;> simp [UnpackedFloat.compare, sign?]
      | finite t n f hn => cases s <;> cases t <;> simp [UnpackedFloat.compare, sign?]
      | _ => cases s <;> simp [UnpackedFloat.compare, sign?]

variable {x y : Float}

theorem le_iff_of_not_isNaN (hx : ¬ x.isNaN) (hy : ¬ y.isNaN) : y ≤ x ↔ ¬ x < y := by
  rw [isNaN_iff] at hx hy
  rw [le_iff, lt_iff, UnpackedFloat.le, compare_swap (parts x)]
  cases hcompare : (parts x).compare (parts y) with
  | none => exact absurd (compare_eq_none_iff.mp hcompare) (not_or.mpr ⟨hx, hy⟩)
  | some o => cases o <;> simp

theorem le_refl_of_not_isNaN (hx : ¬ x.isNaN) : x ≤ x := by
  refine (le_iff_of_not_isNaN hx hx).mpr fun h => ?_
  rw [lt_iff] at h
  have hswap := compare_swap (parts x) (parts x)
  rw [h] at hswap
  cases hswap

theorem not_isNaN_of_le (h : x ≤ y) : ¬ x.isNaN ∧ ¬ y.isNaN := by
  rw [le_iff, UnpackedFloat.le] at h
  rw [isNaN_iff, isNaN_iff, ← not_or, ← compare_eq_none_iff]
  intro hnone
  rw [hnone] at h
  cases h

theorem isFinite_of_between {lo hi : Float} (hlo : lo.isFinite) (hhi : hi.isFinite)
    (hlox : lo ≤ x) (hxhi : x ≤ hi) : x.isFinite := by
  have hbeyond : ∀ u : UnpackedFloat, u.isFinite →
      u.le (.infinity .negative) = false ∧ UnpackedFloat.le (.infinity .positive) u = false := by
    intro u hu
    cases u with
    | notANumber => cases hu
    | infinity s => cases hu
    | zero s => exact ⟨rfl, rfl⟩
    | finite s m e hm => cases s <;> exact ⟨rfl, rfl⟩
  have hnumber := (not_isNaN_of_le hxhi).1
  rw [isNaN_iff] at hnumber
  rw [le_iff] at hlox hxhi
  show (parts x).isFinite
  cases hx : parts x with
  | notANumber =>
      rw [hx] at hnumber
      exact absurd rfl hnumber
  | infinity s =>
      rw [hx] at hlox hxhi
      cases s with
      | negative =>
          rw [(hbeyond (parts lo) hlo).1] at hlox
          cases hlox
      | positive =>
          rw [(hbeyond (parts hi) hhi).2] at hxhi
          cases hxhi
  | zero s => rfl
  | finite s m e hm => rfl

/-! ## Sums -/

theorem parts_add (x y : Float) :
    parts (x + y) = unpack .binary64 (pack .binary64 (add .binary64 (parts x) (parts y))) := rfl

theorem sign?_add_of_isFinite {a b : UnpackedFloat} (ha : a.isFinite) (hb : sign? b ≠ none) :
    sign? (add .binary64 a b) ≠ none := by
  cases a with
  | notANumber => cases ha
  | infinity s => cases ha
  | zero s =>
      cases b with
      | zero t => simp only [add]; split <;> simp [sign?]
      | _ => exact hb
  | finite s m e hm =>
      cases b with
      | finite t n f hn => simp [add, sign?_normalize]
      | zero t => simp [add, sign?]
      | _ => exact hb

theorem not_isNaN_add (hx : x.isFinite) (hy : ¬ y.isNaN) : ¬ (x + y).isNaN := by
  rw [isNaN_iff] at hy ⊢
  rw [parts_add, sign?_unpack_pack]
  exact sign?_add_of_isFinite hx hy

end LinkTelemetry.Binary64
