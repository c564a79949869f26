import LinkTelemetry.Proofs.CompanionLines

/-!
# Lines of the agent, read back

An answer is `OBJECT = TYPE: VALUE`, and each of the three parts may hold the
marks that separate it from the next. What makes the reading unambiguous is
that every mark is looked for from the left: the name of an object has no
equals sign, so the first ` = ` is the one behind it, and a type has no colon,
so the first colon behind that ends the type. The value may hold any of these
marks again (`typedValue_of_opens`).

What a value stands for is settled after that. A whole number may have blanks
and quotes around it, or a label in front of its parentheses, in which only an
opening parenthesis is excluded. A string is handed to the companion's reader
as if it had been printed by the companion.
-/

namespace LinkTelemetry

namespace Text

theorem splitOnceAt_equals {object : List Char} (hobject : '=' ∉ object) (rest : List Char) :
    splitOnceAt [' ', '=', ' '] (object ++ ' ' :: '=' :: ' ' :: rest) = some (object, rest) := by
  induction object with
  | nil => rfl
  | cons c object ih =>
      rw [List.mem_cons, not_or] at hobject
      have hhead :
          dropHead? [' ', '=', ' '] (c :: (object ++ ' ' :: '=' :: ' ' :: rest)) = none := by
        cases object with
        | nil => simp [dropHead?]
        | cons d object =>
            have hd : '=' ≠ d := fun h => hobject.2 (h ▸ List.mem_cons_self)
            simp [dropHead?, hd]
      rw [List.cons_append, splitOnceAt, hhead]
      simp [ih hobject.2]

theorem dropEndWhile_idempotent (p : Char → Bool) (s : List Char) :
    dropEndWhile p (dropEndWhile p s) = dropEndWhile p s := by
  rw [dropEndWhile, dropEndWhile, List.reverse_reverse, List.dropWhile_idempotent]

theorem trim_dropEndWhile (s : List Char) : trim (dropEndWhile isBlank s) = trim s :=
  (stripWhile_of_framed (framed_dropEndWhile isBlank s)).symm

end Text

namespace Source.Agent

open Text (Framed isBlank Opens)

/-- The name of an object, as agents print it. -/
structure IsObject (object : List Char) : Prop where
  equals_not_mem : '=' ∉ object
  feed_not_mem : '\n' ∉ object
  not_blank : ¬ ∀ c ∈ object, isBlank c

def line (object : List Char) (type : String) (value : List Char) : List Char :=
  object ++ ' ' :: '=' :: ' ' :: (type.toList ++ ':' :: value)

/-- A type that is not taken for part of a refusal. -/
structure IsType (type : List Char) : Prop where
  ne_nil : type ≠ []
  head?_ne : type.head? ≠ some 'N'
  not_mem : ∀ c ∈ type, ¬ isBlank c ∧ c ≠ ':'

theorem isType_of_mem {type : String}
    (h : type ∈ ["Counter64", "Counter32", "Gauge32", "Unsigned32", "INTEGER", "STRING"]) :
    IsType type.toList := by
  simp only [List.mem_cons, List.not_mem_nil, or_false] at h
  rcases h with rfl | rfl | rfl | rfl | rfl | rfl
  all_goals exact ⟨by simp, by simp, by simp [isBlank]⟩

/-! ## The three parts -/

section

variable {object value output : List Char} {type : String}

theorem isRefusal_cons {c : Char} (hc : c ≠ 'N') (s : List Char) : isRefusal (c :: s) = false := by
  simp [isRefusal, Text.dropHead?, Ne.symm hc]

theorem trim_line (hobject : IsObject object) (type : String) (value : List Char) :
    Text.trim (line object type value) =
      line (object.dropWhile isBlank) type (Text.dropEndWhile isBlank value) := by
  have hne : ¬ (object.dropWhile isBlank).isEmpty := by
    rw [List.isEmpty_iff, List.dropWhile_eq_nil_iff]
    exact hobject.not_blank
  have hsplit : line object type value =
      (object ++ ' ' :: '=' :: ' ' :: type.toList) ++ ':' :: value := by
    simp [line]
  rw [hsplit, Text.trim, Text.stripWhile_append_cons (by decide), List.dropWhile_append,
    if_neg hne]
  simp [line]

theorem feed_not_mem_line (hobject : IsObject object) (htype : IsType type.toList)
    (hvalue : '\n' ∉ value) : '\n' ∉ line object type value := by
  have htype' : '\n' ∉ type.toList := fun h => (htype.not_mem '\n' h).1 (by decide)
  simp [line, hobject.feed_not_mem, htype', hvalue]

theorem typedValue_of_opens (hobject : IsObject object) (htype : IsType type.toList)
    (hvalue : '\n' ∉ value) (h : Opens (line object type value) output) :
    typedValue output = .ok (type.toList ++ ':' :: Text.dropEndWhile isBlank value) := by
  have hblank : ¬ ∀ c ∈ line object type value, isBlank c :=
    fun hline => hobject.not_blank fun c hc => hline c (List.mem_append_left _ hc)
  have hfirst := h.firstLine?_eq (feed_not_mem_line hobject htype hvalue) hblank
  rw [trim_line hobject, Text.firstLine?] at hfirst
  have hequals : '=' ∉ object.dropWhile isBlank :=
    fun hmem => hobject.equals_not_mem ((List.dropWhile_suffix isBlank).mem hmem)
  obtain ⟨c, rest, htext⟩ := List.exists_cons_of_ne_nil htype.ne_nil
  have hc := (htype.not_mem c (htext ▸ List.mem_cons_self)).1
  have htrim : Text.trim (type.toList ++ ':' :: Text.dropEndWhile isBlank value) =
      type.toList ++ ':' :: Text.dropEndWhile isBlank value := by
    rw [Text.trim, Text.stripWhile_append_cons (by decide), Text.dropEndWhile_idempotent, htext,
      List.dropWhile_cons_of_neg hc]
  have hN : c ≠ 'N' := by
    rintro rfl
    exact htype.head?_ne (by rw [htext]; rfl)
  have hrefusal : isRefusal (type.toList ++ ':' :: Text.dropEndWhile isBlank value) = false := by
    rw [htext]
    exact isRefusal_cons hN _
  simp only [typedValue, hfirst, line, Text.splitOnceAt_equals hequals, htrim, hrefusal]
  rfl

end

/-! ## Whole numbers -/

theorem enumerated_append {label : List Char} (hlabel : '(' ∉ label) (number : List Char) :
    enumerated (label ++ '(' :: (number ++ [')'])) = number := by
  have hstart : (label ++ '(' :: (number ++ [')'])).findIdx? (· == '(') = some label.length := by
    have hnone : label.findIdx? (· == '(') = none := by
      rw [List.findIdx?_eq_none_iff]
      intro c hc
      rw [beq_eq_false_iff_ne]
      rintro rfl
      exact hlabel hc
    simp [List.findIdx?_append, hnone, List.findIdx?_cons]
  have hend : Text.dropTail? [')'] (label ++ '(' :: (number ++ [')'])) =
      some (label ++ '(' :: number) := by
    simp [Text.dropTail?, Text.dropHead?]
  rw [enumerated, hstart, hend]
  simp

theorem parse_of_opens {object value output : List Char} {type : String}
    (hobject : IsObject object) (htype : IsType type.toList) (hvalue : '\n' ∉ value)
    (h : Opens (line object type value) output) :
    parse output =
      if type = "Counter64" ∨ type = "Counter32" then
        return .counter (← readWhole (Text.dropEndWhile isBlank value))
      else if type = "Gauge32" ∨ type = "Unsigned32" then
        return .gauge (← readWhole (Text.dropEndWhile isBlank value))
      else if type = "INTEGER" then
        return .gauge (← readWhole (enumerated (Text.trim value)))
      else if type = "STRING" ∨ type = "Opaque" then
        return .float (← readNumber ['%'] (Text.dropEndWhile isBlank value))
      else .error (.malformed (.unsupportedType type)) := by
  have hsplit := Text.splitOnce_append (fun hmem => (htype.not_mem ':' hmem).2 rfl)
    (Text.dropEndWhile isBlank value)
  have htag : Text.trim type.toList = type.toList :=
    Text.stripWhile_eq_self fun c hc => (htype.not_mem c hc).1
  simp only [parse, typedValue_of_opens hobject htype hvalue h, ok_bind, hsplit, htag,
    Text.trim_dropEndWhile, String.ofList_toList]

theorem trim_enumerated (label number : List Char) {gap : List Char} (hgap : ∀ c ∈ gap, isBlank c) :
    Text.trim (label ++ '(' :: (number ++ ')' :: gap)) =
      label.dropWhile isBlank ++ '(' :: (number ++ [')']) := by
  have hsplit : label ++ '(' :: (number ++ ')' :: gap) =
      (label ++ '(' :: number) ++ ')' :: gap := by simp
  have hend : Text.dropEndWhile isBlank gap = [] :=
    Text.dropEndWhile_append_of_forall (s := []) hgap
  rw [hsplit, Text.trim, Text.stripWhile_append_cons (by decide),
    Text.dropWhile_append_cons (by decide), hend]
  simp

/-- A whole number comes back from the first line that is not blank, as the
kind of measurement that its type makes, and from behind any label. -/
theorem typed_lines_decode (n : UInt64) {object output : List Char} (hobject : IsObject object) :
    (∀ type make, (type, make) ∈ [("Counter64", Measurement.counter), ("Counter32", .counter),
        ("Gauge32", .gauge), ("Unsigned32", .gauge), ("INTEGER", .gauge)] →
      ∀ value, Dressed n value → '\n' ∉ value → Opens (line object type value) output →
        parse output = .ok (make n)) ∧
    ∀ label number gap, '(' ∉ label → Dressed n number → (∀ c ∈ gap, isBlank c) →
      '\n' ∉ label ++ number ++ gap →
      Opens (line object "INTEGER" (label ++ '(' :: (number ++ ')' :: gap))) output →
        parse output = .ok (.gauge n) := by
  constructor
  · intro type make htype value hdressed hvalue hopens
    have hread := hdressed.dropEndWhile.readWhole_eq
    have hplain : readWhole (enumerated (Text.trim value)) = .ok n := by
      have htrim : Dressed n (Text.trim value) := hdressed.dropWhile.dropEndWhile
      rw [enumerated_eq_self htrim.paren_not_mem, htrim.readWhole_eq]
    simp only [List.mem_cons, Prod.mk.injEq, List.not_mem_nil, or_false] at htype
    rcases htype with ⟨rfl, rfl⟩ | ⟨rfl, rfl⟩ | ⟨rfl, rfl⟩ | ⟨rfl, rfl⟩ | ⟨rfl, rfl⟩
    all_goals
      rw [parse_of_opens hobject (isType_of_mem (by simp)) hvalue hopens]
      simp [hread, hplain]
  · intro label number gap hlabel hdressed hgap hfeed hopens
    have hvalue : '\n' ∉ label ++ '(' :: (number ++ ')' :: gap) := by
      simp only [List.mem_append, not_or] at hfeed
      simp [hfeed]
    have hlabel' : '(' ∉ label.dropWhile isBlank :=
      fun hmem => hlabel ((List.dropWhile_suffix isBlank).mem hmem)
    rw [parse_of_opens hobject (isType_of_mem (by simp)) hvalue hopens]
    simp [trim_enumerated label number hgap, enumerated_append hlabel', hdressed.readWhole_eq]

/-- A quoted counter behind a blank line and with another line after it, and a
label that has all the marks of a line and another parenthesis. -/
theorem typed_lines_decode_of_labelled :
    parse " \r\nx = Counter64: \"18446744073709551615\"\r\ny".toList =
      .ok (.counter 18446744073709551615) ∧
    parse "x = INTEGER: a = b:) (3)".toList = .ok (.gauge 3) := by
  have hobject : IsObject ['x'] := ⟨by decide, by decide, by simp [isBlank]⟩
  constructor
  · refine (typed_lines_decode 18446744073709551615 hobject).1 "Counter64" .counter (by simp)
      " \"18446744073709551615\"\r".toList ?_ (by simp) ?_
    · exact ⟨"\"18446744073709551615\"".toList,
        ⟨['"'], ['"'], by decide +kernel, by simp, by simp⟩,
        ⟨[' '], ['\r'], rfl, by simp [isBlank], by simp [isBlank]⟩⟩
    · exact ⟨[' ', '\r', '\n'], ['\n', 'y'], rfl, by simp [isBlank], by simp⟩
  · refine (typed_lines_decode 3 hobject).2 " a = b:) ".toList ['3'] [] (by simp)
      (.of_quoted (.refl _ _)) (by simp) (by simp) ?_
    exact ⟨[], [], rfl, by simp, by simp⟩

/-! ## Strings of the companion -/

theorem parseExtend_of_opens (m : Metric) {object value output : List Char}
    (hobject : IsObject object) (hvalue : '\n' ∉ value)
    (h : Opens (line object "STRING" value) output) :
    parseExtend m output = Companion.parse m (Text.unquote (Text.trim value)) := by
  rw [parseExtend, typedValue_of_opens hobject (isType_of_mem (by simp)) hvalue h, ok_bind]
  show Companion.parse m (Text.unquote (Text.trim (Text.dropEndWhile isBlank value))) = _
  rw [Text.trim_dropEndWhile]

/-- The companion's output comes to the same in a string of the agent as
without one, also where it is no good. -/
theorem extend_payload_as_companion (m : Metric) {object payload output : List Char}
    (hobject : IsObject object) (hfeed : '\n' ∉ payload) (hquote : '"' ∉ payload) :
    (Opens (line object "STRING" (' ' :: payload)) output →
      parseExtend m output = Companion.parse m payload) ∧
    (Opens (line object "STRING" (' ' :: '"' :: (payload ++ ['"']))) output →
      parseExtend m output = Companion.parse m payload) := by
  have hfree : ∀ c ∈ payload, ¬ c == '"' := by
    intro c hc h
    exact hquote (beq_iff_eq.mp h ▸ hc)
  constructor
  · intro h
    have hvalue : '\n' ∉ ' ' :: payload := by simp [hfeed]
    have hbare : Text.unquote (Text.trim (' ' :: payload)) = Text.trim payload := by
      obtain ⟨before, after, hsplit, -, -⟩ := Text.framed_stripWhile isBlank payload
      rw [Text.trim_cons_blank (by decide)]
      refine Text.stripWhile_eq_self fun c hc => hfree c ?_
      rw [hsplit]
      exact List.mem_append_left after (List.mem_append_right before hc)
    rw [parseExtend_of_opens m hobject hvalue h, hbare, Companion.parse_trim]
  · intro h
    have hvalue : '\n' ∉ ' ' :: '"' :: (payload ++ ['"']) := by simp [hfeed]
    have hbare : Text.unquote (Text.trim (' ' :: '"' :: (payload ++ ['"']))) = payload := by
      have htrim : Text.trim ('"' :: (payload ++ ['"'])) = '"' :: (payload ++ ['"']) := by
        rw [Text.trim, ← List.cons_append, Text.stripWhile_append_cons (by decide)]
        rfl
      rw [Text.trim_cons_blank (by decide), htrim]
      have hframe : Framed (· == '"') payload ('"' :: (payload ++ ['"'])) :=
        ⟨['"'], ['"'], by simp, by simp, by simp⟩
      exact hframe.stripWhile_eq hfree
    rw [parseExtend_of_opens m hobject hvalue h, hbare]

/-- Totals of which one is no number, in quotes, and no output at all. -/
theorem extend_payload_as_companion_of_malformed :
    parseExtend .bytesOut "\na.\"sub\" = STRING: \"7:No Such = 9\"\n".toList =
      Companion.parse .bytesOut "7:No Such = 9".toList ∧
    parseExtend .latencyMs "x = STRING: ".toList = Companion.parse .latencyMs [] := by
  constructor
  · have hobject : IsObject "a.\"sub\"".toList :=
      ⟨by simp, by simp, by simp [isBlank]⟩
    refine (extend_payload_as_companion .bytesOut hobject (by simp) (by simp)).2 ?_
    exact ⟨['\n'], ['\n'], rfl, by simp [isBlank], by simp⟩
  · have hobject : IsObject ['x'] := ⟨by decide, by decide, by simp [isBlank]⟩
    refine (extend_payload_as_companion .latencyMs hobject (by simp) (by simp)).1 ?_
    exact ⟨[], [], rfl, by simp, by simp⟩

end Source.Agent

end LinkTelemetry
