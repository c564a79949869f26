import LinkTelemetry.Proofs.Lines
import LinkTelemetry.Proofs.PrintedNumbers

/-!
# Lines of the companion, read back

The companion prints numbers, and what stands around them is noise: blanks
around a number, quotes around the number or around the line. Two totals in
one pair of quotes leave a quote at the outer side of each, so the reader of a
number meets quotes that have no partner. `Dressed` covers all of this, and a
dressed number is read as the number (`Dressed.readWhole_eq`).

The other direction needs no such notion. A total that was read is denoted by
the digits on its side of the first colon, all of them, and it fits its word
(`parse_eq_counter_iff`).
-/

namespace LinkTelemetry.Source

open Text (Framed isBlank)

/-! ## Dressed numbers -/

/-- A number with any quotes at its sides, and any blanks around these. -/
def Dressed (n : UInt64) (text : List Char) : Prop :=
  ∃ quoted, Framed (· == '"') (Numeral.write n.toNat) quoted ∧ Framed isBlank quoted text

theorem readWhole_eq_ok_iff {text : List Char} {n : UInt64} :
    readWhole text = .ok n ↔ Numeral.Denotes (bare text) n.toNat := by
  rw [← Numeral.readUInt64?_eq_some_iff, readWhole]
  cases Numeral.readUInt64? (bare text) <;> simp

section

variable {n : UInt64} {text numeral quoted : List Char}

theorem isNumeralChar_of_mem_write {m : Nat} : ∀ c ∈ Numeral.write m, Decimal.isNumeralChar c :=
  fun _ hc => Decimal.isNumeralChar_of_isDigit (Numeral.isDigit_of_mem_write hc)

theorem not_quote_of_mem_write {m : Nat} : ∀ c ∈ Numeral.write m, ¬ c == '"' := by
  intro c hc hquote
  exact not_isDressing (isNumeralChar_of_mem_write c hc) (isDressing_of_quote hquote)

theorem not_isBlank_of_mem_write {m : Nat} : ∀ c ∈ Numeral.write m, ¬ isBlank c := by
  intro c hc hblank
  exact not_isDressing (isNumeralChar_of_mem_write c hc) (isDressing_of_isBlank hblank)

theorem write_ne_nil (m : Nat) : Numeral.write m ≠ [] := Nat.toDigits_ne_nil

theorem not_isBlank_of_mem_framed (hnumeral : ∀ c ∈ numeral, Decimal.isNumeralChar c)
    (h : Framed (· == '"') numeral quoted) : ∀ c ∈ quoted, ¬ isBlank c := by
  refine h.forall_mem (fun c hc => ?_) fun c hc hblank => ?_
  · rw [beq_iff_eq.mp hc]
    decide
  · exact not_isDressing (hnumeral c hc) (isDressing_of_isBlank hblank)

theorem not_isBlank_of_mem_quoted (h : Framed (· == '"') (Numeral.write n.toNat) quoted) :
    ∀ c ∈ quoted, ¬ isBlank c := not_isBlank_of_mem_framed isNumeralChar_of_mem_write h

theorem quoted_ne_nil (h : Framed (· == '"') (Numeral.write n.toNat) quoted) : quoted ≠ [] := by
  obtain ⟨before, after, rfl, -, -⟩ := h
  simp [write_ne_nil]

/-- Nothing of a numeral is cut off with what stands around it. -/
theorem bare_eq_of_framed (hnumeral : ∀ c ∈ numeral, Decimal.isNumeralChar c)
    (hquoted : Framed (· == '"') numeral quoted) (htext : Framed isBlank quoted text) :
    bare text = numeral := by
  have htrim : Text.trim text = quoted :=
    htext.stripWhile_eq (not_isBlank_of_mem_framed hnumeral hquoted)
  rw [bare, htrim]
  refine hquoted.stripWhile_eq fun c hc hquote => ?_
  exact not_isDressing (hnumeral c hc) (isDressing_of_quote hquote)

namespace Dressed

theorem of_quoted (h : Framed (· == '"') (Numeral.write n.toNat) quoted) : Dressed n quoted :=
  ⟨quoted, h, .refl _ _⟩

theorem bare_eq (h : Dressed n text) : bare text = Numeral.write n.toNat := by
  obtain ⟨quoted, hquoted, htext⟩ := h
  exact bare_eq_of_framed isNumeralChar_of_mem_write hquoted htext

theorem readWhole_eq (h : Dressed n text) : readWhole text = .ok n := by
  rw [readWhole_eq_ok_iff, h.bare_eq]
  exact Numeral.denotes_write n.toNat

theorem dropWhile (h : Dressed n text) : Dressed n (text.dropWhile isBlank) := by
  obtain ⟨quoted, hquoted, htext⟩ := h
  exact ⟨quoted, hquoted,
    htext.dropWhile (not_isBlank_of_mem_quoted hquoted) (quoted_ne_nil hquoted)⟩

theorem dropEndWhile (h : Dressed n text) : Dressed n (Text.dropEndWhile isBlank text) := by
  obtain ⟨quoted, hquoted, htext⟩ := h
  exact ⟨quoted, hquoted,
    htext.dropEndWhile (not_isBlank_of_mem_quoted hquoted) (quoted_ne_nil hquoted)⟩

theorem framed (h : Dressed n text) : Framed isDressing (Numeral.write n.toNat) text := by
  obtain ⟨quoted, hquoted, htext⟩ := h
  exact (hquoted.mono fun _ => isDressing_of_quote).trans
    (htext.mono fun _ => isDressing_of_isBlank)

theorem colon_not_mem (h : Dressed n text) : ':' ∉ text :=
  not_mem_of_framed not_isDressing_colon (by decide) h.framed isNumeralChar_of_mem_write

theorem paren_not_mem (h : Dressed n text) : '(' ∉ text :=
  not_mem_of_framed not_isDressing_paren (by decide) h.framed isNumeralChar_of_mem_write

end Dressed

end

namespace Companion

/-! ## Totals -/

theorem sides_eq_ok_iff {line before after : List Char} :
    sides line = .ok (before, after) ↔ ':' ∉ before ∧ line = before ++ ':' :: after := by
  rw [← Text.splitOnce_eq_some_iff, sides]
  cases Text.splitOnce ':' line <;> simp

theorem part_bytesIn_iff {line part : List Char} :
    Part line .bytesIn part ↔ ∃ after, ':' ∉ part ∧ line = part ++ ':' :: after := by
  simp only [← sides_eq_ok_iff]
  constructor
  · rintro (h | -)
    exact ⟨_, h⟩
  · rintro ⟨after, h⟩
    exact .received h

theorem part_bytesOut_iff {line part : List Char} :
    Part line .bytesOut part ↔ ∃ before, ':' ∉ before ∧ line = before ++ ':' :: part := by
  simp only [← sides_eq_ok_iff]
  constructor
  · rintro (- | h)
    exact ⟨_, h⟩
  · rintro ⟨before, h⟩
    exact .sent h

/-- A total is what the digits on its side denote. -/
theorem parse_eq_counter_iff {m : Metric} (hm : m.isCounter) {output : List Char} {n : UInt64} :
    parse m output = .ok (.counter n) ↔
      ∃ part, Part (Text.trim output) m part ∧ Numeral.Denotes (bare part) n.toNat := by
  simp only [← readWhole_eq_ok_iff]
  constructor
  · intro h
    obtain ⟨part, hpart, hprinted⟩ := parse_ok h
    cases hprinted with
    | counter hread => exact ⟨part, hpart, hread⟩
  · rintro ⟨part, hpart, hread⟩
    have hne : (Text.trim output).isEmpty = false := by
      cases hpart with
      | received hsides | sent hsides =>
          obtain ⟨-, hline⟩ := sides_eq_ok_iff.mp hsides
          simp [hline]
      | count | latency => cases hm
    cases hpart with
    | received hsides | sent hsides => simp [parse, hne, hsides, hread]
    | count | latency => cases hm

section

variable {left right : List Char}

theorem trim_pair (left right : List Char) : Text.trim (left ++ ':' :: right) =
    left.dropWhile isBlank ++ ':' :: Text.dropEndWhile isBlank right :=
  Text.stripWhile_append_cons (by decide) left right

theorem parse_bytesIn_pair {received : UInt64} (hleft : Dressed received left)
    (right : List Char) : parse .bytesIn (left ++ ':' :: right) = .ok (.counter received) := by
  rw [parse_eq_counter_iff rfl, trim_pair]
  refine ⟨_, part_bytesIn_iff.mpr ⟨_, hleft.dropWhile.colon_not_mem, rfl⟩, ?_⟩
  exact readWhole_eq_ok_iff.mp hleft.dropWhile.readWhole_eq

theorem parse_bytesOut_pair {sent : UInt64} (hleft : ':' ∉ left) (hright : Dressed sent right) :
    parse .bytesOut (left ++ ':' :: right) = .ok (.counter sent) := by
  have hcolon : ':' ∉ left.dropWhile isBlank :=
    fun h => hleft ((List.dropWhile_suffix isBlank).mem h)
  rw [parse_eq_counter_iff rfl, trim_pair]
  refine ⟨_, part_bytesOut_iff.mpr ⟨_, hcolon, rfl⟩, ?_⟩
  exact readWhole_eq_ok_iff.mp hright.dropEndWhile.readWhole_eq

end

/-! ## Counts -/

section

variable {n : UInt64} {before number rest : List Char}

theorem takeWhile_append_rest (hnumber : ∀ c ∈ number, ¬ isBlank c)
    (hrest : ∀ c ∈ rest.head?, isBlank c) : (number ++ rest).takeWhile (!isBlank ·) = number := by
  rw [List.takeWhile_append_of_pos (by simpa using hnumber)]
  cases rest with
  | nil => simp
  | cons c rest => simp [hrest c rfl]

theorem trim_number (hbefore : ∀ c ∈ before, isBlank c) (hnumber : ∀ c ∈ number, ¬ isBlank c)
    (hne : number ≠ []) (rest : List Char) :
    Text.trim (before ++ number ++ rest) = number ++ Text.dropEndWhile isBlank rest := by
  rw [Text.trim, Text.stripWhile_append hnumber hne, List.dropWhile_eq_nil_iff.mpr hbefore,
    List.nil_append]

/-- What is cut off behind the digits of a count is quotes or part of what
follows, and `tail` is what stays. -/
theorem exists_tail (hbefore : ∀ c ∈ before, isBlank c) {opening closing : List Char}
    (hopening : ∀ c ∈ opening, c == '"')
    (hnumber : ∀ c ∈ opening ++ Numeral.write n.toNat ++ closing, ¬ isBlank c)
    (rest : List Char) : ∃ tail cut, closing ++ rest = tail ++ cut ∧
      Text.unquote (Text.trim (before ++ (opening ++ Numeral.write n.toNat ++ closing) ++ rest)) =
        Numeral.write n.toNat ++ tail := by
  have hne : opening ++ Numeral.write n.toNat ++ closing ≠ [] := by simp [write_ne_nil]
  obtain ⟨blanks, hblanks, -⟩ := Text.exists_dropEndWhile isBlank rest
  obtain ⟨quotes, hquotes, -⟩ :=
    Text.exists_dropEndWhile (· == '"') (closing ++ Text.dropEndWhile isBlank rest)
  refine ⟨Text.dropEndWhile (· == '"') (closing ++ Text.dropEndWhile isBlank rest),
    quotes ++ blanks, ?_, ?_⟩
  · rw [← List.append_assoc, ← hquotes, List.append_assoc, ← hblanks]
  · rw [trim_number hbefore hnumber hne, List.append_assoc, Text.unquote,
      Text.stripWhile_append not_quote_of_mem_write (write_ne_nil _),
      List.dropWhile_eq_nil_iff.mpr hopening, List.nil_append]

/-- So the first word has all digits of the count, and beside them only quotes. -/
theorem framed_firstWord (hbefore : ∀ c ∈ before, isBlank c)
    (hnumber : Framed (· == '"') (Numeral.write n.toNat) number)
    (hrest : ∀ c ∈ rest.head?, isBlank c) :
    Framed (· == '"') (Numeral.write n.toNat)
      (firstWord (Text.trim (before ++ number ++ rest))) := by
  have hblank := not_isBlank_of_mem_quoted hnumber
  obtain ⟨opening, closing, rfl, hopening, hclosing⟩ := hnumber
  obtain ⟨tail, cut, hcut, hunquote⟩ := exists_tail hbefore hopening hblank rest
  have hhead : (Numeral.write n.toNat ++ tail).dropWhile isBlank = Numeral.write n.toNat ++ tail :=
    Text.dropWhile_append not_isBlank_of_mem_write (write_ne_nil _) [] tail
  rw [firstWord, Text.head?_words, hunquote, hhead,
    List.takeWhile_append_of_pos (by simpa using not_isBlank_of_mem_write)]
  refine ⟨[], _, rfl, by simp, fun c hc => hclosing c ?_⟩
  have hmem := Text.mem_takeWhile_append hc cut
  rwa [← hcut, takeWhile_append_rest (fun d hd => hblank d (by simp [hd])) hrest] at hmem

theorem parse_activeConnections (hbefore : ∀ c ∈ before, isBlank c)
    (hnumber : Framed (· == '"') (Numeral.write n.toNat) number)
    (hrest : ∀ c ∈ rest.head?, isBlank c) :
    parse .activeConnections (before ++ number ++ rest) = .ok (.gauge n) := by
  have hne : (Text.trim (before ++ number ++ rest)).isEmpty = false := by
    rw [trim_number hbefore (not_isBlank_of_mem_quoted hnumber) (quoted_ne_nil hnumber)]
    simp [quoted_ne_nil hnumber]
  have hword := Dressed.of_quoted (framed_firstWord hbefore hnumber hrest)
  simp only [parse, hne, hword.readWhole_eq]
  rfl

end

theorem parse_trim (m : Metric) (text : List Char) : parse m (Text.trim text) = parse m text := by
  have htrim : Text.trim (Text.trim text) = Text.trim text :=
    (Text.stripWhile_of_framed (Text.framed_stripWhile isBlank text)).symm
  simp only [parse, htrim]

/-- Two totals come back as printed, each for its own metric, and so does a
count whatever words follow it. What comes back as a total stands in decimal
on its side of the first colon. -/
theorem printed_lines_decode :
    (∀ received sent left right, Dressed received left → Dressed sent right →
      parse .bytesIn (left ++ ':' :: right) = .ok (.counter received) ∧
      parse .bytesOut (left ++ ':' :: right) = .ok (.counter sent)) ∧
    (∀ (n : UInt64) before number rest, (∀ c ∈ before, isBlank c) →
      Framed (· == '"') (Numeral.write n.toNat) number → (∀ c ∈ rest.head?, isBlank c) →
      parse .activeConnections (before ++ number ++ rest) = .ok (.gauge n)) ∧
    (∀ output n, parse .bytesIn output = .ok (.counter n) →
      ∃ left right, ':' ∉ left ∧ Text.trim output = left ++ ':' :: right ∧
        Numeral.Denotes (bare left) n.toNat) ∧
    ∀ output n, parse .bytesOut output = .ok (.counter n) →
      ∃ left right, ':' ∉ left ∧ Text.trim output = left ++ ':' :: right ∧
        Numeral.Denotes (bare right) n.toNat := by
  refine ⟨?_, ?_, ?_, ?_⟩
  · intro received sent left right hleft hright
    exact ⟨parse_bytesIn_pair hleft right, parse_bytesOut_pair hleft.colon_not_mem hright⟩
  · intro n before number rest hbefore hnumber hrest
    exact parse_activeConnections hbefore hnumber hrest
  · intro output n h
    obtain ⟨left, hpart, hdenotes⟩ := (parse_eq_counter_iff rfl).mp h
    obtain ⟨right, hleft, htrim⟩ := part_bytesIn_iff.mp hpart
    exact ⟨left, right, hleft, htrim, hdenotes⟩
  · intro output n h
    obtain ⟨right, hpart, hdenotes⟩ := (parse_eq_counter_iff rfl).mp h
    obtain ⟨left, hleft, htrim⟩ := part_bytesOut_iff.mp hpart
    exact ⟨left, right, hleft, htrim, hdenotes⟩

/-- Totals in one pair of quotes with the largest of its word among them, a
quoted count with a word behind it, and a total with a sign in front. -/
theorem printed_lines_decode_of_quoted :
    parse .bytesOut " \"7:18446744073709551615\"\n".toList = .ok (.counter 18446744073709551615) ∧
    parse .activeConnections "\"12 active\"".toList = .ok (.gauge 12) ∧
    ∃ left right, ':' ∉ left ∧ Text.trim "+007 :x".toList = left ++ ':' :: right ∧
      Numeral.Denotes (bare left) 7 := by
  obtain ⟨hpairs, hcounts, hreceived, -⟩ := printed_lines_decode
  refine ⟨?_, ?_, ?_⟩
  · refine (hpairs 7 18446744073709551615 " \"7".toList _ ?_ ?_).2
    · exact ⟨['"', '7'], ⟨['"'], [], by decide +kernel, by simp, by simp⟩,
        ⟨[' '], [], rfl, by simp [isBlank], by simp⟩⟩
    · exact ⟨"18446744073709551615\"".toList,
        ⟨[], ['"'], by decide +kernel, by simp, by simp⟩,
        ⟨[], ['\n'], rfl, by simp, by simp [isBlank]⟩⟩
  · exact hcounts 12 [] "\"12".toList " active\"".toList (by simp)
      ⟨['"'], [], by decide +kernel, by simp, by simp⟩ (by simp [isBlank])
  · exact hreceived _ 7 rfl

end Companion

end LinkTelemetry.Source
