import LinkTelemetry.Proofs.CompanionLines

/-!
# What is read as a whole number

The reader of whole numbers cuts twice, first the blanks off the ends of a text
and then the quotes off what is left. The cuts do not commute: a quote inside
the blanks goes, and a blank inside the quotes stays and is no digit. So the
texts that are read are those with digits in the middle, a plus sign in front
of them at most, then quotes on either side and blanks around everything
(`Shows`). The quotes need no partners.

The digits may have zeros in front and be of any number, and what they denote
is the number that is read. If it does not fit a word the text is refused, as
is every other text. The refusal quotes what the two cuts left, and a cut is
known by what it leaves (`Text.stripWhile_eq_iff`).
-/

namespace LinkTelemetry.Source

open Text (Framed Stripped isBlank)

/-- A text with digits in the middle: blanks, quotes, one plus sign at most, the
digits, quotes and blanks again. -/
def Shows (text digits : List Char) : Prop :=
  ∃ before opening sign closing after,
    text = before ++ (opening ++ (sign ++ digits) ++ closing) ++ after ∧
    (∀ c ∈ before, isBlank c) ∧ (∀ c ∈ after, isBlank c) ∧
    (∀ c ∈ opening, c = '"') ∧ (∀ c ∈ closing, c = '"') ∧
    (sign = [] ∨ sign = ['+']) ∧ digits ≠ [] ∧ ∀ c ∈ digits, Decimal.isDigit c

theorem isNumeralChar_of_denotes {numeral : List Char} {n : Nat} (h : Numeral.Denotes numeral n) :
    ∀ c ∈ numeral, Decimal.isNumeralChar c := by
  obtain ⟨digits, hsign, -, hdigits, -⟩ := h
  have hall : ∀ c ∈ digits, Decimal.isNumeralChar c :=
    fun c hc => Decimal.isNumeralChar_of_isDigit (hdigits c hc)
  rcases hsign with rfl | rfl
  · exact hall
  · exact Decimal.forall_mem_cons_of rfl hall

theorem denotes_bare_iff {text : List Char} {n : Nat} :
    Numeral.Denotes (bare text) n ↔
      ∃ digits, Shows text digits ∧ Nat.ofDigitChars 10 digits 0 = n := by
  constructor
  · rintro ⟨digits, hsign, hne, hdigits, hvalue⟩
    obtain ⟨sign, hsplit, hsign⟩ :
        ∃ sign, bare text = sign ++ digits ∧ (sign = [] ∨ sign = ['+']) := by
      rcases hsign with h | h
      · exact ⟨[], h, .inl rfl⟩
      · exact ⟨['+'], h, .inr rfl⟩
    obtain ⟨before, after, htext, hbefore, hafter⟩ := Text.framed_stripWhile isBlank text
    obtain ⟨opening, closing, htrim, hopening, hclosing⟩ :=
      Text.framed_stripWhile (· == '"') (Text.trim text)
    have hbare : Text.trim text = opening ++ (sign ++ digits) ++ closing := by
      rw [← hsplit]
      exact htrim
    refine ⟨digits, ⟨before, opening, sign, closing, after, ?_, hbefore, hafter, ?_, ?_, hsign,
      hne, hdigits⟩, hvalue⟩
    · rw [← hbare]
      exact htext
    · exact fun c hc => beq_iff_eq.mp (hopening c hc)
    · exact fun c hc => beq_iff_eq.mp (hclosing c hc)
  · rintro ⟨digits, ⟨before, opening, sign, closing, after, htext, hbefore, hafter, hopening,
      hclosing, hsign, hne, hdigits⟩, hvalue⟩
    have hdenotes : Numeral.Denotes (sign ++ digits) n := by
      refine ⟨digits, ?_, hne, hdigits, hvalue⟩
      exact hsign.imp (fun h => by rw [h]; rfl) fun h => by rw [h]; rfl
    have hquoted : Framed (· == '"') (sign ++ digits) (opening ++ (sign ++ digits) ++ closing) :=
      ⟨opening, closing, rfl, fun c hc => beq_iff_eq.mpr (hopening c hc),
        fun c hc => beq_iff_eq.mpr (hclosing c hc)⟩
    rw [bare_eq_of_framed (isNumeralChar_of_denotes hdenotes) hquoted
      ⟨before, after, htext, hbefore, hafter⟩]
    exact hdenotes

theorem readWhole_eq_error_iff {text : List Char} {cause : SourceError} :
    readWhole text = .error cause ↔
      (∀ n, readWhole text ≠ .ok n) ∧
        cause = .malformed (.expectedInteger (.ofList (bare text))) := by
  rw [readWhole]
  cases Numeral.readUInt64? (bare text) <;> simp [eq_comm]

theorem bare_eq_iff {text kept : List Char} :
    bare text = kept ↔
      ∃ trimmed, Stripped isBlank trimmed text ∧ Stripped (· == '"') kept trimmed := by
  simp only [← Text.stripWhile_eq_iff, exists_eq_left', bare, Text.trim, Text.unquote]

theorem shows_write (n : Nat) : Shows (Numeral.write n) (Numeral.write n) :=
  ⟨[], [], [], [], [], by simp, by simp, by simp, by simp, by simp, .inl rfl, write_ne_nil n,
    fun _ => Numeral.isDigit_of_mem_write⟩

theorem readWhole_write_of_le {n : Nat} (h : 2 ^ 64 ≤ n) :
    readWhole (Numeral.write n) =
      .error (.malformed (.expectedInteger (.ofList (Numeral.write n)))) := by
  have hbare : bare (Numeral.write n) = Numeral.write n :=
    bare_eq_of_framed isNumeralChar_of_mem_write (.refl _ _) (.refl _ _)
  have hlarge : ¬ n < UInt64.size := Nat.not_lt.mpr h
  rw [readWhole, hbare, Numeral.readUInt64?_write, if_neg hlarge]

/-- A text is read as a whole number exactly if it shows digits that denote a
number of 64 bits, and that is the number. Every other text is refused with
what is left of it without the blanks at its ends and then without the quotes
there; so are digits for a larger number. -/
theorem whole_numbers_of_digits (text : List Char) :
    (∀ n, readWhole text = .ok n ↔
      ∃ digits, Shows text digits ∧ Nat.ofDigitChars 10 digits 0 = n.toNat) ∧
    (∀ cause, readWhole text = .error cause ↔
      (∀ digits, Shows text digits → 2 ^ 64 ≤ Nat.ofDigitChars 10 digits 0) ∧
        ∃ trimmed kept, Stripped isBlank trimmed text ∧ Stripped (· == '"') kept trimmed ∧
          cause = .malformed (.expectedInteger (.ofList kept)) ∧
          cause.message =
            s!"malformed response: expected an integer, got '{String.ofList kept}'") := by
  have hok : ∀ n, readWhole text = .ok n ↔
      ∃ digits, Shows text digits ∧ Nat.ofDigitChars 10 digits 0 = n.toNat :=
    fun n => readWhole_eq_ok_iff.trans denotes_bare_iff
  refine ⟨hok, fun cause => ?_⟩
  have hnone : (∀ n, readWhole text ≠ .ok n) ↔
      ∀ digits, Shows text digits → 2 ^ 64 ≤ Nat.ofDigitChars 10 digits 0 := by
    constructor
    · intro h digits hshows
      by_contra hlt
      refine h (.ofNat (Nat.ofDigitChars 10 digits 0)) ((hok _).mpr ⟨digits, hshows, ?_⟩)
      rw [UInt64.toNat_ofNat_of_lt' (Nat.lt_of_not_le hlt)]
    · intro h n hread
      obtain ⟨digits, hshows, hvalue⟩ := (hok n).mp hread
      have hle := h digits hshows
      rw [hvalue] at hle
      exact absurd n.toNat_lt (Nat.not_lt.mpr hle)
  rw [readWhole_eq_error_iff, hnone]
  refine and_congr_right fun _ => ?_
  constructor
  · rintro rfl
    obtain ⟨trimmed, htrimmed, hkept⟩ := bare_eq_iff.mp (Eq.refl (bare text))
    exact ⟨trimmed, bare text, htrimmed, hkept, rfl, rfl⟩
  · rintro ⟨trimmed, kept, htrimmed, hkept, hcause, -⟩
    rw [hcause, bare_eq_iff.mpr ⟨trimmed, htrimmed, hkept⟩]

/-- A sign, zeros and a quote without a partner do no harm. A blank inside the
quotes does, and so does the first number that is too large. -/
theorem whole_numbers_of_digits_in_quotes :
    readWhole " \"+007\n".toList = .ok 7 ∧
    (∀ digits, Shows "\" 5\" ".toList digits → 2 ^ 64 ≤ Nat.ofDigitChars 10 digits 0) ∧
    let large := Numeral.write (2 ^ 64)
    Shows large large ∧ ∃ cause, readWhole large = .error cause ∧ ∃ kept,
      cause.message = s!"malformed response: expected an integer, got '{String.ofList kept}'" := by
  refine ⟨?_, ?_, ?_⟩
  · refine ((whole_numbers_of_digits _).1 7).mpr ⟨['0', '0', '7'], ?_, by decide⟩
    exact ⟨[' '], ['"'], ['+'], [], ['\n'], rfl, by simp [isBlank], by simp [isBlank], by simp,
      by simp, .inr rfl, by simp, by simp [Decimal.isDigit]⟩
  · have hrefused : readWhole "\" 5\" ".toList =
        .error (.malformed (.expectedInteger (.ofList [' ', '5']))) := rfl
    exact (((whole_numbers_of_digits _).2 _).mp hrefused).1
  · have hrefused := readWhole_write_of_le (Nat.le_refl (2 ^ 64))
    obtain ⟨-, trimmed, kept, -, -, -, hmessage⟩ :=
      ((whole_numbers_of_digits _).2 _).mp hrefused
    exact ⟨shows_write _, _, hrefused, kept, hmessage⟩

end LinkTelemetry.Source
