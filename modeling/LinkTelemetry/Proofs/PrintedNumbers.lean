import LinkTelemetry.Proofs.Framing
import LinkTelemetry.Proofs.Numerals
import LinkTelemetry.Proofs.Outcomes
import LinkTelemetry.Source.Agent

/-!
# Numbers that programs print

Whatever a program prints, the value read from it is finite and not negative.
The parsers look in different places, but what they find there goes to one of
two readers (`Printed`), and both are guarded: the reader of fractions checks
what it read, and the reader of whole numbers knows no sign and no word.

The same two readers refuse every text that prints something else, with the
quotes and the units that may stand around it. This needs more than the
guards, because a reader might cut such a text down to a number. It cannot:
what it cuts off is no part of a numeral (`not_isDressing`), so all that is
ever read is the numeral itself.
-/

namespace LinkTelemetry

/-- A measurement that rates, severities and documents can bear. -/
def Measurement.IsSound (v : Measurement) : Prop := v.toFloat.isFinite ∧ 0 ≤ v.toFloat

namespace Source

open Decimal (isNumeralChar)
open Text (Framed isBlank)

/-- A numeral whose number is negative or not finite. -/
def Unsound (s : List Char) : Prop :=
  ∃ x, Decimal.read? s = some x ∧ ¬ (x.isFinite ∧ 0 ≤ x)

/-- What may stand around a number: blanks, quotes, and the letters of units. -/
def isDressing (c : Char) : Bool := isBlank c || ['"', '%', 'm', 's'].contains c

section

variable {c : Char}

theorem isDressing_iff : isDressing c ↔ isBlank c ∨ c = '"' ∨ c = '%' ∨ c = 'm' ∨ c = 's' := by
  simp [isDressing]

theorem isDressing_of_isBlank (h : isBlank c) : isDressing c := isDressing_iff.mpr (.inl h)

theorem isDressing_of_quote (h : c == '"') : isDressing c :=
  isDressing_iff.mpr (.inr (.inl (beq_iff_eq.mp h)))

theorem toLower_of_isBlank (h : isBlank c) : c.toLower = c := by
  refine toLower_eq_self ?_
  simp only [isBlank, Bool.or_eq_true, Bool.and_eq_true, decide_eq_true_eq, beq_iff_eq] at h
  omega

theorem not_isNumeralChar_of_isBlank (h : isBlank c) : ¬ isNumeralChar c := by
  rw [isNumeralChar, toLower_of_isBlank h, Bool.or_eq_true, Decimal.isDigit_iff]
  rintro (hdigit | hletter)
  · simp only [isBlank, Bool.or_eq_true, Bool.and_eq_true, decide_eq_true_eq, beq_iff_eq] at h
    omega
  · simp only [List.contains_iff_mem, List.mem_cons, List.not_mem_nil, or_false] at hletter
    rcases hletter with rfl | rfl | rfl | rfl | rfl | rfl | rfl | rfl | rfl | rfl <;> cases h

/-- Nothing that stands around a numeral can be part of one. -/
theorem not_isDressing (h : isNumeralChar c) : ¬ isDressing c := by
  intro hdressing
  rcases isDressing_iff.mp hdressing with hblank | rfl | rfl | rfl | rfl
  · exact not_isNumeralChar_of_isBlank hblank h
  all_goals exact absurd h (by decide)

end

/-! ## The two readers -/

theorem ne_nil_of_read? {s : List Char} {x : Float} (h : Decimal.read? s = some x) : s ≠ [] := by
  rintro rfl
  cases h

theorem framed_bare (text : List Char) : Framed isDressing (bare text) text :=
  ((Text.framed_stripWhile _ _).mono fun _ => isDressing_of_quote).trans
    ((Text.framed_stripWhile _ _).mono fun _ => isDressing_of_isBlank)

theorem readWhole_ok {text : List Char} {n : UInt64} (h : readWhole text = .ok n) :
    ∃ s, Framed isDressing s text ∧ Numeral.readUInt64? s = some n := by
  rw [readWhole] at h
  split at h
  · next m hm =>
      cases h
      exact ⟨bare text, framed_bare text, hm⟩
  · cases h

theorem readNumber_ok {unit text : List Char} {x : Float} (hunit : ∀ c ∈ unit, isDressing c)
    (h : readNumber unit text = .ok x) :
    ∃ s, Framed isDressing s text ∧ Decimal.read? s = some x ∧ x.isFinite ∧ 0 ≤ x := by
  simp only [readNumber] at h
  split at h
  · next y hy =>
      split at h
      · next hguard =>
          cases h
          rw [Bool.and_eq_true, decide_eq_true_eq] at hguard
          refine ⟨_, ?_, hy, hguard⟩
          have hcut := (Text.framed_dropTail? hunit (bare text)).trans (framed_bare text)
          exact ((Text.framed_stripWhile _ _).mono fun _ => isDressing_of_isBlank).trans hcut
      · cases h
  · cases h

/-- A measurement that one of the readers reads from a text. -/
inductive Printed (text : List Char) : Measurement → Prop where
  | counter {n : UInt64} (h : readWhole text = .ok n) : Printed text (.counter n)
  | gauge {n : UInt64} (h : readWhole text = .ok n) : Printed text (.gauge n)
  | float {unit : List Char} {x : Float} (hunit : ∀ c ∈ unit, isDressing c)
      (h : readNumber unit text = .ok x) : Printed text (.float x)

section

variable {s text : List Char} {v : Measurement}

theorem printed_counter (h : (do return .counter (← readWhole text) : Sample) = .ok v) :
    Printed text v := by
  obtain ⟨n, hn, h⟩ := bind_eq_ok.mp h
  cases h
  exact .counter hn

theorem printed_gauge (h : (do return .gauge (← readWhole text) : Sample) = .ok v) :
    Printed text v := by
  obtain ⟨n, hn, h⟩ := bind_eq_ok.mp h
  cases h
  exact .gauge hn

theorem printed_float {unit : List Char} (hunit : ∀ c ∈ unit, isDressing c)
    (h : (do return .float (← readNumber unit text) : Sample) = .ok v) : Printed text v := by
  obtain ⟨x, hx, h⟩ := bind_eq_ok.mp h
  cases h
  exact .float hunit hx

/-- Whichever reader it was, the text shows a numeral that is finite and not
negative. -/
theorem Printed.exists_numeral (h : Printed text v) :
    ∃ s x, Framed isDressing s text ∧ Decimal.read? s = some x ∧ x.isFinite ∧ 0 ≤ x := by
  have hwhole : ∀ n, readWhole text = .ok n →
      ∃ s x, Framed isDressing s text ∧ Decimal.read? s = some x ∧ x.isFinite ∧ 0 ≤ x := by
    intro n hn
    obtain ⟨s, hs, hread⟩ := readWhole_ok hn
    obtain ⟨x, hx⟩ := Decimal.read?_of_readUInt64? hread
    exact ⟨s, x, hs, hx⟩
  cases h with
  | counter h => exact hwhole _ h
  | gauge h => exact hwhole _ h
  | float hunit h =>
      obtain ⟨s, hs⟩ := readNumber_ok hunit h
      exact ⟨s, _, hs⟩

theorem Printed.isSound (h : Printed text v) : v.IsSound := by
  cases h with
  | @counter n => exact ⟨Binary64.isFinite_toFloat n, Binary64.zero_le_toFloat n⟩
  | @gauge n => exact ⟨Binary64.isFinite_toFloat n, Binary64.zero_le_toFloat n⟩
  | float hunit h =>
      obtain ⟨-, -, -, hsound⟩ := readNumber_ok hunit h
      exact hsound

/-- The numeral that is read is the only one in its text. -/
theorem Printed.not_framed (h : Printed text v) (hs : Unsound s) : ¬ Framed isDressing s text := by
  intro htext
  obtain ⟨x, hx, hbad⟩ := hs
  obtain ⟨t, y, ht, hy, hgood⟩ := h.exists_numeral
  have heq : s = t := htext.unique ht
    (fun c hc => not_isDressing (Decimal.isNumeralChar_of_read? hx c hc))
    fun c hc => not_isDressing (Decimal.isNumeralChar_of_read? hy c hc)
  rw [← heq, hx, Option.some.injEq] at hy
  exact hbad (hy ▸ hgood)

/-- Blanks, quotes and units alone show no number. -/
theorem Printed.exists_not_isDressing (h : Printed text v) : ∃ c ∈ text, ¬ isDressing c := by
  obtain ⟨t, x, ⟨before, after, rfl, -⟩, hx, -⟩ := h.exists_numeral
  obtain ⟨c, rest, rfl⟩ := List.exists_cons_of_ne_nil (ne_nil_of_read? hx)
  have hc := Decimal.isNumeralChar_of_read? hx c List.mem_cons_self
  exact ⟨c, by simp, not_isDressing hc⟩

end

/-! ## Where the readers look -/

/-- The part of a companion's line that is read for a metric. -/
inductive Companion.Part (line : List Char) : Metric → List Char → Prop where
  | received {part sent : List Char} (h : sides line = .ok (part, sent)) : Part line .bytesIn part
  | sent {received part : List Char} (h : sides line = .ok (received, part)) :
      Part line .bytesOut part
  | count : Part line .activeConnections (firstWord line)
  | latency : Part line .latencyMs line

section

variable {output : List Char} {v : Measurement}

theorem Companion.parse_ok {m : Metric} (h : parse m output = .ok v) :
    ∃ part, Part (Text.trim output) m part ∧ Printed part v := by
  simp only [parse] at h
  split at h
  · cases h
  · cases m with
    | bytesIn =>
        obtain ⟨⟨received, sent⟩, hsides, h⟩ := bind_eq_ok.mp h
        exact ⟨received, .received hsides, printed_counter h⟩
    | bytesOut =>
        obtain ⟨⟨received, sent⟩, hsides, h⟩ := bind_eq_ok.mp h
        exact ⟨sent, .sent hsides, printed_counter h⟩
    | activeConnections => exact ⟨_, .count, printed_gauge h⟩
    | latencyMs => exact ⟨_, .latency, printed_float (by simp [isDressing]) h⟩
    | cpuPercent => cases h
    | memoryPercent => cases h

theorem Agent.parse_ok (h : parse output = .ok v) :
    ∃ typed tag raw, typedValue output = .ok typed ∧ Text.splitOnce ':' typed = some (tag, raw) ∧
      (Printed raw v ∨ Printed (enumerated (Text.trim raw)) v) := by
  obtain ⟨typed, htyped, h⟩ := bind_eq_ok.mp h
  split at h
  · cases h
  · next tag raw hsplit =>
      refine ⟨typed, tag, raw, htyped, hsplit, ?_⟩
      dsimp only at h
      split at h
      · exact .inl (printed_counter h)
      split at h
      · exact .inl (printed_gauge h)
      split at h
      · exact .inr (printed_gauge h)
      split at h
      · exact .inl (printed_float (by simp [isDressing]) h)
      · cases h

theorem Agent.parseExtend_ok {m : Metric} (h : parseExtend m output = .ok v) :
    ∃ typed payload, typedValue output = .ok typed ∧
      Text.dropHead? "STRING:".toList typed = some payload ∧
      Companion.parse m (Text.unquote (Text.trim payload)) = .ok v := by
  obtain ⟨typed, htyped, h⟩ := bind_eq_ok.mp h
  split at h
  · next payload hpayload => exact ⟨typed, payload, htyped, hpayload, h⟩
  · cases h

end

/-! ## Where an answer carries its number -/

/-- A line of the companion that puts the text `s` where a metric is read. -/
inductive Carries (s : List Char) : Metric → List Char → Prop where
  | alone {m : Metric} {line : List Char} (h : Framed isDressing s line) : Carries s m line
  | received {raw sent : List Char} (h : Framed isDressing s raw) :
      Carries s .bytesIn (raw ++ ':' :: sent)
  | sent {received raw : List Char} (hfirst : ':' ∉ received) (h : Framed isDressing s raw) :
      Carries s .bytesOut (received ++ ':' :: raw)
  | counted {before rest : List Char} (hbefore : ∀ c ∈ before, isDressing c)
      (hrest : ∀ c ∈ rest.takeWhile (!isBlank ·), isDressing c) :
      Carries s .activeConnections (before ++ s ++ rest)

theorem not_mem_of_framed {s text : List Char} {d : Char} (hdressing : ¬ isDressing d)
    (hnumeral : ¬ isNumeralChar d) (h : Framed isDressing s text)
    (hs : ∀ c ∈ s, isNumeralChar c) : d ∉ text := by
  have hfree : ∀ c ∈ text, c ≠ d := by
    refine h.forall_mem (fun c hc => ?_) fun c hc => ?_
    · rintro rfl
      exact hdressing hc
    · rintro rfl
      exact hnumeral (hs c hc)
  exact fun hmem => hfree d hmem rfl

theorem not_isDressing_colon : ¬ isDressing ':' := by simp [isDressing, isBlank]

theorem not_isDressing_paren : ¬ isDressing '(' := by simp [isDressing, isBlank]

namespace Carries

variable {s line : List Char} {m : Metric} {p : Char → Bool}

theorem stripWhile (hp : ∀ c, p c → isDressing c) (hs : ∀ c ∈ s, isNumeralChar c) (hne : s ≠ [])
    (h : Carries s m line) : Carries s m (Text.stripWhile p line) := by
  have hfree : ∀ c ∈ s, ¬ p c := fun c hc hpc => not_isDressing (hs c hc) (hp c hpc)
  have hcolon : ¬ p ':' := fun hpc => not_isDressing_colon (hp ':' hpc)
  cases h with
  | alone h => exact .alone (h.stripWhile hfree hne)
  | received h =>
      rw [Text.stripWhile_append_cons hcolon]
      exact .received (h.dropWhile hfree hne)
  | sent hfirst h =>
      rw [Text.stripWhile_append_cons hcolon]
      refine .sent (fun hmem => hfirst ?_) (h.dropEndWhile hfree hne)
      exact (List.dropWhile_suffix p).mem hmem
  | @counted before rest hbefore hrest =>
      rw [Text.stripWhile_append hfree hne]
      refine .counted (fun c hc => ?_) fun c hc => ?_
      · exact hbefore c ((List.dropWhile_suffix p).mem hc)
      · obtain ⟨after, hsplit, -⟩ := Text.exists_dropEndWhile p rest
        have hmem := Text.mem_takeWhile_append hc after
        rw [← hsplit] at hmem
        exact hrest c hmem

theorem exists_counted (h : Carries s .activeConnections line) :
    ∃ before rest, line = before ++ s ++ rest ∧ (∀ c ∈ before, isDressing c) ∧
      ∀ c ∈ rest.takeWhile (!isBlank ·), isDressing c := by
  cases h with
  | alone h =>
      obtain ⟨before, after, hline, hbefore, hafter⟩ := h
      exact ⟨before, after, hline, hbefore, fun c hc => hafter c ((List.takeWhile_prefix _).mem hc)⟩
  | counted hbefore hrest => exact ⟨_, _, rfl, hbefore, hrest⟩

/-- The first word of a connections line is the frame of the number or stands
in front of it. -/
theorem firstWord_cases (hs : ∀ c ∈ s, isNumeralChar c) (hne : s ≠ [])
    (h : Carries s .activeConnections line) :
    Framed isDressing s (Companion.firstWord line) ∨
      ∀ c ∈ Companion.firstWord line, isDressing c := by
  have hblank : ∀ c ∈ s, ¬ isBlank c :=
    fun c hc hb => not_isNumeralChar_of_isBlank hb (hs c hc)
  obtain ⟨before, rest, hline, hbefore, hrest⟩ :=
    (h.stripWhile (fun _ => isDressing_of_quote) hs hne).exists_counted
  have hb : ∀ c ∈ before.dropWhile isBlank, isDressing c :=
    fun c hc => hbefore c ((List.dropWhile_suffix isBlank).mem hc)
  have hword : Companion.firstWord line =
      (before.dropWhile isBlank ++ (s ++ rest)).takeWhile (!isBlank ·) := by
    rw [Companion.firstWord, Text.head?_words, Text.unquote, hline,
      Text.dropWhile_append hblank hne, List.append_assoc]
  rw [hword, List.takeWhile_append]
  split
  · left
    rw [List.takeWhile_append_of_pos (by simpa using hblank), ← List.append_assoc]
    exact ⟨_, _, rfl, hb, hrest⟩
  · right
    exact fun c hc => hb c ((List.takeWhile_prefix _).mem hc)

end Carries

section

variable {s : List Char}

theorem Companion.sides_eq_error {line : List Char} (h : ':' ∉ line) :
    sides line = .error (.malformed (.expectedPair (.ofList line))) := by
  rw [sides, Text.splitOnce_eq_none h]

theorem Companion.sides_append {received : List Char} (h : ':' ∉ received) (sent : List Char) :
    sides (received ++ ':' :: sent) = .ok (received, sent) := by
  rw [sides, Text.splitOnce_append h]

theorem Agent.enumerated_eq_self {raw : List Char} (h : '(' ∉ raw) : enumerated raw = raw := by
  have hnone : raw.findIdx? (· == '(') = none := by
    rw [List.findIdx?_eq_none_iff]
    intro c hc
    rw [beq_eq_false_iff_ne]
    rintro rfl
    exact h hc
  rw [enumerated, hnone]

theorem Companion.parse_ne_ok {m : Metric} {line : List Char} (hs : Unsound s)
    (h : Carries s m line) (v : Measurement) : parse m line ≠ .ok v := by
  obtain ⟨x, hx, -⟩ := id hs
  have hchars := Decimal.isNumeralChar_of_read? hx
  have hne := ne_nil_of_read? hx
  have hcolon : ∀ text, Framed isDressing s text → ':' ∉ text := fun text htext =>
    not_mem_of_framed not_isDressing_colon (by decide) htext hchars
  intro hv
  obtain ⟨part, hpart, hprinted⟩ := parse_ok hv
  have hline : Carries s m (Text.trim line) :=
    h.stripWhile (fun _ => isDressing_of_isBlank) hchars hne
  generalize Text.trim line = trimmed at hpart hline
  cases hpart with
  | received hsides =>
      cases hline with
      | alone h =>
          rw [sides_eq_error (hcolon _ h)] at hsides
          cases hsides
      | received h =>
          rw [sides_append (hcolon _ h)] at hsides
          cases hsides
          exact hprinted.not_framed hs h
  | sent hsides =>
      cases hline with
      | alone h =>
          rw [sides_eq_error (hcolon _ h)] at hsides
          cases hsides
      | sent hfirst h =>
          rw [sides_append hfirst] at hsides
          cases hsides
          exact hprinted.not_framed hs h
  | count =>
      rcases hline.firstWord_cases hchars hne with hword | hword
      · exact hprinted.not_framed hs hword
      · obtain ⟨c, hc, hbare⟩ := hprinted.exists_not_isDressing
        exact hbare (hword c hc)
  | latency =>
      cases hline with
      | alone h => exact hprinted.not_framed hs h

section

variable {output tag raw : List Char}

theorem Agent.parse_ne_ok (hs : Unsound s) (htyped : typedValue output = .ok (tag ++ ':' :: raw))
    (htag : ':' ∉ tag) (hraw : Framed isDressing s raw) (v : Measurement) :
    parse output ≠ .ok v := by
  obtain ⟨x, hx, -⟩ := id hs
  have hchars := Decimal.isNumeralChar_of_read? hx
  have htrim : Framed isDressing s (Text.trim raw) :=
    hraw.stripWhile (fun c hc hb => not_isNumeralChar_of_isBlank hb (hchars c hc))
      (ne_nil_of_read? hx)
  have hparen : '(' ∉ Text.trim raw :=
    not_mem_of_framed not_isDressing_paren (by decide) htrim hchars
  intro hv
  obtain ⟨typed, tag', raw', htyped', hsplit, hprinted⟩ := parse_ok hv
  rw [htyped, Except.ok.injEq] at htyped'
  rw [← htyped', Text.splitOnce_append htag] at hsplit
  cases hsplit
  rw [enumerated_eq_self hparen] at hprinted
  rcases hprinted with hprinted | hprinted
  · exact hprinted.not_framed hs hraw
  · exact hprinted.not_framed hs htrim

/-- A value of another type than a string is refused whatever it holds. -/
theorem Agent.parseExtend_ne_ok {m : Metric} (hs : Unsound s)
    (htyped : typedValue output = .ok (tag ++ ':' :: raw)) (htag : ':' ∉ tag)
    (hraw : Carries s m raw) (v : Measurement) : parseExtend m output ≠ .ok v := by
  obtain ⟨x, hx, -⟩ := id hs
  have hchars := Decimal.isNumeralChar_of_read? hx
  have hne := ne_nil_of_read? hx
  intro hv
  obtain ⟨typed, payload, htyped', hpayload, hv⟩ := parseExtend_ok hv
  rw [htyped, Except.ok.injEq] at htyped'
  have heq : payload = raw := by
    have hstring : ':' ∉ ['S', 'T', 'R', 'I', 'N', 'G'] := by decide
    have hcut : Text.splitOnce ':' typed = some (['S', 'T', 'R', 'I', 'N', 'G'], payload) :=
      Text.eq_append_of_dropHead? hpayload ▸ Text.splitOnce_append hstring payload
    rw [← htyped', Text.splitOnce_append htag] at hcut
    exact (congrArg Prod.snd (Option.some.inj hcut)).symm
  subst heq
  have htrim := hraw.stripWhile (fun _ => isDressing_of_isBlank) hchars hne
  have hline := htrim.stripWhile (fun _ => isDressing_of_quote) hchars hne
  exact Companion.parse_ne_ok hs hline v hv

end

end

/-- No output of a program makes a value that is negative or not finite, and
an answer that prints such a number makes no value at all. -/
theorem printed_values_sound :
    (∀ m output v, Companion.parse m output = .ok v → v.IsSound) ∧
    (∀ output v, Agent.parse output = .ok v → v.IsSound) ∧
    (∀ m output v, Agent.parseExtend m output = .ok v → v.IsSound) ∧
    (∀ s ∈ ["nan", "inf", "-1", "1e400"], Unsound s.toList) ∧
    ∀ s, Unsound s →
      (∀ m line, Carries s m line → ∀ v, Companion.parse m line ≠ .ok v) ∧
      ∀ output tag raw, Agent.typedValue output = .ok (tag ++ ':' :: raw) → ':' ∉ tag →
        (Framed isDressing s raw → ∀ v, Agent.parse output ≠ .ok v) ∧
        ∀ m, Carries s m raw → ∀ v, Agent.parseExtend m output ≠ .ok v := by
  have hcompanion : ∀ m output v, Companion.parse m output = .ok v → v.IsSound := by
    intro m output v h
    obtain ⟨_, -, hprinted⟩ := Companion.parse_ok h
    exact hprinted.isSound
  refine ⟨hcompanion, ?_, ?_, ?_, fun s hs => ⟨?_, ?_⟩⟩
  · intro output v h
    obtain ⟨_, _, _, -, -, hprinted | hprinted⟩ := Agent.parse_ok h
    · exact hprinted.isSound
    · exact hprinted.isSound
  · intro m output v h
    obtain ⟨_, _, -, -, h⟩ := Agent.parseExtend_ok h
    exact hcompanion m _ v h
  · intro s hmem
    simp only [List.mem_cons, List.not_mem_nil, or_false] at hmem
    rcases hmem with rfl | rfl | rfl | rfl
    all_goals exact ⟨_, rfl, by decide +kernel⟩
  · exact fun m line h v => Companion.parse_ne_ok hs h v
  · intro output tag raw htyped htag
    exact ⟨fun h v => Agent.parse_ne_ok hs htyped htag h v,
      fun m h v => Agent.parseExtend_ne_ok hs htyped htag h v⟩

/-- A load that is a NaN with its unit and in quotes, a latency too large for
a float, a negative total behind a good one, and a good load. -/
theorem printed_values_sound_of_answers :
    (∀ v, Agent.parse "iso.3.6.1 = STRING: \"nan %\"\n".toList ≠ .ok v) ∧
    (∀ v, Companion.parse .latencyMs "1e400ms\n".toList ≠ .ok v) ∧
    (∀ v, Agent.parseExtend .bytesOut "iso.3.6.1 = STRING: \"7:-1\"\n".toList ≠ .ok v) ∧
    ∃ v, Agent.parse "iso.3.6.1 = STRING: \"42.5 %\"\n".toList = .ok v ∧ v.IsSound := by
  obtain ⟨-, hagent, -, hunsound, hrefused⟩ := printed_values_sound
  refine ⟨?_, ?_, ?_, ?_⟩
  · obtain ⟨-, h⟩ := hrefused "nan".toList (hunsound "nan" (by simp))
    refine (h _ "STRING".toList " \"nan %\"".toList rfl (by decide)).1 ?_
    exact ⟨[' ', '"'], [' ', '%', '"'], rfl, by simp [isDressing, isBlank],
      by simp [isDressing, isBlank]⟩
  · obtain ⟨h, -⟩ := hrefused "1e400".toList (hunsound "1e400" (by simp))
    exact h _ _ (.alone ⟨[], ['m', 's', '\n'], rfl, by simp, by simp [isDressing, isBlank]⟩)
  · obtain ⟨-, h⟩ := hrefused "-1".toList (hunsound "-1" (by simp))
    refine (h _ "STRING".toList " \"7:-1\"".toList rfl (by decide)).2 _ ?_
    have hfirst : ':' ∉ " \"7".toList := by decide
    exact .sent hfirst ⟨[], ['"'], rfl, by simp, by simp [isDressing]⟩
  · have h : ∃ v, Agent.parse "iso.3.6.1 = STRING: \"42.5 %\"\n".toList = .ok v := ⟨_, rfl⟩
    obtain ⟨v, hv⟩ := h
    exact ⟨v, hv, hagent _ v hv⟩

end Source

end LinkTelemetry
