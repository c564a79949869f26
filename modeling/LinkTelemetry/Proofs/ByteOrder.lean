import LinkTelemetry.Text.Utf8
import Mathlib.Data.String.Basic

/-!
# Texts in the order of their bytes

Maps that are keyed by texts are sorted by them, and texts are compared
character by character. That is the order of their bytes as well: a character
of more bytes begins with a larger one, and the bytes of one length hold the
bits of the character from the highest to the lowest.
-/

namespace LinkTelemetry.Text

theorem toBytes_ofList (s : List Char) : toBytes (.ofList s) = s.flatMap String.utf8EncodeChar := by
  rw [toBytes, String.toUTF8_eq_toByteArray, String.toByteArray_ofList, List.utf8Encode,
    List.toList_data_toByteArray]

/-- Numbers are compared six bits at a time, the highest ones first. -/
theorem sixBits_lt {v w : Nat} (h : v < w) :
    v / 262144 < w / 262144 ∨ v / 262144 = w / 262144 ∧
      (v / 4096 % 64 < w / 4096 % 64 ∨ v / 4096 % 64 = w / 4096 % 64 ∧
        (v / 64 % 64 < w / 64 % 64 ∨ v / 64 % 64 = w / 64 % 64 ∧ v % 64 < w % 64)) := by
  have hstep : ∀ m n, m < n → m / 64 < n / 64 ∨ m / 64 = n / 64 ∧ m % 64 < n % 64 := by omega
  have hsecond : ∀ n, n / 64 / 64 = n / 4096 := by omega
  have hthird : ∀ n, n / 4096 / 64 = n / 262144 := by omega
  rcases hstep v w h with hlast | ⟨heq, hlast⟩
  · rcases hstep _ _ hlast with hnext | ⟨hnext, hlast⟩
    · rw [hsecond, hsecond] at hnext
      rcases hstep _ _ hnext with hlead | ⟨hlead, hnext⟩
      · rw [hthird, hthird] at hlead
        exact .inl hlead
      · rw [hthird, hthird] at hlead
        exact .inr ⟨hlead, .inl hnext⟩
    · rw [hsecond, hsecond] at hnext
      have hlead := hthird v ▸ hthird w ▸ congrArg (· / 64) hnext
      exact .inr ⟨hlead, .inr ⟨congrArg (· % 64) hnext, .inl hlast⟩⟩
  · have hnext := hsecond v ▸ hsecond w ▸ congrArg (· / 64) heq
    have hlead := hthird v ▸ hthird w ▸ congrArg (· / 64) hnext
    exact .inr ⟨hlead, .inr ⟨congrArg (· % 64) hnext, .inr ⟨congrArg (· % 64) heq, hlast⟩⟩⟩

/-- Characters are in the order of their bytes, whatever follows them. -/
theorem encodeChar_append_lt {c d : Char} (h : c < d) (s t : List UInt8) :
    String.utf8EncodeChar c ++ s < String.utf8EncodeChar d ++ t := by
  have hlt : ∀ m n, m < 256 → n < 256 → (UInt8.ofNat m < UInt8.ofNat n ↔ m < n) := by
    intro m n hm hn
    rw [UInt8.lt_iff_toNat_lt, UInt8.toNat_ofNat_of_lt' hm, UInt8.toNat_ofNat_of_lt' hn]
  have heq : ∀ m n, m < 256 → n < 256 → (UInt8.ofNat m = UInt8.ofNat n ↔ m = n) := by
    intro m n hm hn
    rw [← UInt8.toNat_inj, UInt8.toNat_ofNat_of_lt' hm, UInt8.toNat_ofNat_of_lt' hn]
  have hv : c.val.toNat < d.val.toNat := h
  have hw : d.val.toNat < 0x110000 := by
    rcases d.valid with hd | hd <;> omega
  rw [String.utf8EncodeChar, String.utf8EncodeChar]
  generalize c.val.toNat = v at hv
  generalize d.val.toNat = w at hv hw
  have hbits := sixBits_lt hv
  repeat' split
  all_goals try omega
  all_goals
    simp (disch := omega) only [List.cons_append, List.nil_append, List.cons_lt_cons_iff, hlt, heq]
  all_goals try omega
  have hlead : v / 262144 < 8 ∧ w / 262144 < 8 := by omega
  rw [Nat.mod_eq_of_lt hlead.1, Nat.mod_eq_of_lt hlead.2]
  simp only [Nat.add_lt_add_iff_right, Nat.add_right_cancel_iff]
  rcases hbits with h | ⟨hfirst, h | ⟨hsecond, h | ⟨hthird, h⟩⟩⟩ <;> simp [*]

theorem flatMap_encodeChar_lt {s t : List Char} (h : s < t) :
    s.flatMap String.utf8EncodeChar < t.flatMap String.utf8EncodeChar := by
  induction s generalizing t with
  | nil =>
      obtain _ | ⟨d, t⟩ := t
      · exact absurd h (List.lt_irrefl _)
      · obtain ⟨b, rest, hd⟩ := List.exists_cons_of_ne_nil (String.utf8EncodeChar_ne_nil (c := d))
        rw [List.flatMap_cons, hd]
        exact List.nil_lt_cons _ _
  | cons c s ih =>
      obtain _ | ⟨d, t⟩ := t
      · exact absurd h (List.not_lt_nil _)
      · rw [List.flatMap_cons, List.flatMap_cons]
        rcases List.cons_lt_cons_iff.mp h with hcd | ⟨rfl, hst⟩
        · exact encodeChar_append_lt hcd _ _
        · exact List.append_left_lt (ih hst)

theorem toBytes_lt_toBytes_iff {a b : String} : toBytes a < toBytes b ↔ a < b := by
  have hlt : ∀ a b : String, a < b → toBytes a < toBytes b := by
    intro a b h
    rw [← String.ofList_toList (s := a), ← String.ofList_toList (s := b), toBytes_ofList,
      toBytes_ofList]
    exact flatMap_encodeChar_lt (String.lt_iff_toList_lt.mp h)
  refine ⟨fun h => ?_, hlt a b⟩
  rcases lt_trichotomy a b with hab | rfl | hba
  · exact hab
  · exact absurd h (List.lt_irrefl _)
  · exact absurd h (List.lt_asymm (hlt b a hba))

theorem toBytes_le_toBytes_iff {a b : String} : toBytes a ≤ toBytes b ↔ a ≤ b := by
  rw [← List.not_lt, toBytes_lt_toBytes_iff, not_lt]

end LinkTelemetry.Text
