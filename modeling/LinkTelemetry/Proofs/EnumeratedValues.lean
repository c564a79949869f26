import LinkTelemetry.Proofs.AgentLines

/-!
# The number in an enumerated value

The agent prints an enumerated value as a label with a number behind it in
parentheses, and the number is cut out from the first opening parenthesis to
the last character. Texts are cut at their bytes: a cut inside a character or
behind the end gives nothing (`Text.isSome_fromByte?_iff`). Here the byte is
looked for in the whole value, and the cut is made in the value without its
last character.

The byte after the first opening parenthesis starts a character or ends the
text that is left, however many parentheses there are and whatever stands
between them. For the parenthesis that closes the value is not the one that
opens it, so the shorter text still holds the opening one, with the same
characters in front of it.
-/

namespace LinkTelemetry

namespace Text

/-! ## Places in a text, counted in bytes -/

def byteSize (s : List Char) : Nat := (String.ofList s).utf8ByteSize

/-- The byte at which a character first occurs. -/
def byteOf? (c : Char) (s : List Char) : Option Nat :=
  (splitOnce c s).map fun (front, _) => byteSize front

/-- What stands in a text from a byte on. -/
def fromByte? : List Char → Nat → Option (List Char)
  | s, 0 => some s
  | [], _ + 1 => none
  | c :: rest, n + 1 =>
    if c.utf8Size ≤ n + 1 then fromByte? rest (n + 1 - c.utf8Size) else none

theorem byteSize_append (s t : List Char) : byteSize (s ++ t) = byteSize s + byteSize t := by
  rw [byteSize, String.ofList_append, String.utf8ByteSize_append, byteSize, byteSize]

theorem byteSize_singleton (c : Char) : byteSize [c] = c.utf8Size := by
  rw [byteSize, ← String.singleton_eq_ofList, String.utf8ByteSize_singleton]

theorem byteSize_cons (c : Char) (s : List Char) :
    byteSize (c :: s) = c.utf8Size + byteSize s := by
  rw [← List.singleton_append, byteSize_append, byteSize_singleton]

section

variable {s rest : List Char} {n : Nat}

theorem fromByte?_append (front rest : List Char) :
    fromByte? (front ++ rest) (byteSize front) = some rest := by
  induction front with
  | nil => cases rest <;> rfl
  | cons c front ih =>
      obtain ⟨n, hn⟩ : ∃ n, byteSize (c :: front) = n + 1 := by
        rw [byteSize_cons]
        exact Nat.exists_eq_add_one.mpr (Nat.add_pos_left c.utf8Size_pos _)
      have hrest : n + 1 - c.utf8Size = byteSize front := by
        rw [← hn, byteSize_cons, Nat.add_sub_cancel_left]
      have hle : c.utf8Size ≤ n + 1 := by
        rw [← hn, byteSize_cons]
        exact Nat.le_add_right ..
      rw [hn, List.cons_append, fromByte?, if_pos hle, hrest, ih]

theorem exists_of_fromByte? (h : fromByte? s n = some rest) :
    ∃ front, s = front ++ rest ∧ byteSize front = n := by
  fun_induction fromByte? s n with
  | case1 s => exact ⟨[], Option.some.inj h, rfl⟩
  | case2 => cases h
  | case3 c s n hle ih =>
      obtain ⟨front, hs, hfront⟩ := ih h
      refine ⟨c :: front, by rw [hs, List.cons_append], ?_⟩
      rw [byteSize_cons, hfront, Nat.add_sub_cancel' hle]
  | case4 => cases h

theorem fromByte?_eq_some_iff :
    fromByte? s n = some rest ↔ ∃ front, s = front ++ rest ∧ byteSize front = n := by
  constructor
  · exact exists_of_fromByte?
  · rintro ⟨front, rfl, rfl⟩
    exact fromByte?_append front rest

/-- A text can be cut at a byte exactly if a character starts there or the text ends there. -/
theorem isSome_fromByte?_iff :
    (fromByte? s n).isSome ↔ (⟨n⟩ : String.Pos.Raw).IsValid (.ofList s) := by
  rw [Option.isSome_iff_exists, String.Pos.Raw.isValid_ofList]
  constructor
  · rintro ⟨rest, h⟩
    obtain ⟨front, rfl, hfront⟩ := exists_of_fromByte? h
    exact ⟨front.length, by rw [List.take_left]; exact hfront.symm⟩
  · rintro ⟨k, hk⟩
    exact ⟨s.drop k,
      fromByte?_eq_some_iff.mpr ⟨s.take k, (List.take_append_drop k s).symm, hk.symm⟩⟩

theorem byteOf?_eq_some_iff {c : Char} :
    byteOf? c s = some n ↔
      ∃ front rest, c ∉ front ∧ s = front ++ c :: rest ∧ byteSize front = n := by
  simp only [byteOf?, Option.map_eq_some_iff, Prod.exists, splitOnce_eq_some_iff, and_assoc]

end

/-- What closes a text is not what opens it, so a text that holds the one and
ends in the other has something between them, if only an empty text. -/
theorem exists_between {opening closing : Char} {front rest inner : List Char}
    (hne : opening ≠ closing) (h : front ++ opening :: rest = inner ++ [closing]) :
    ∃ between, rest = between ++ [closing] ∧ inner = front ++ opening :: between := by
  rcases List.eq_nil_or_concat rest with rfl | ⟨between, c, rfl⟩
  · exact absurd (List.singleton_inj.mp (List.append_inj_right' h rfl)) hne
  · have hends : (front ++ opening :: between) ++ [c] = inner ++ [closing] := by
      rw [← h, List.append_assoc, List.cons_append, List.concat_eq_append]
    obtain ⟨hfront, hlast⟩ := List.append_inj' hends rfl
    exact ⟨between, by rw [List.concat_eq_append, hlast], hfront.symm⟩

end Text

namespace Source.Agent

theorem parse_integer {output typed tag raw : List Char}
    (htyped : typedValue output = .ok typed)
    (hsplit : Text.splitOnce ':' typed = some (tag, raw))
    (htag : Text.trim tag = "INTEGER".toList) :
    parse output = do return .gauge (← readWhole (enumerated (Text.trim raw))) := by
  simp only [parse, htyped, ok_bind, hsplit, htag]
  rfl

/-- The byte behind the first opening parenthesis of an integer's value is a
place in the value without its final parenthesis, so the cut there succeeds,
and what it gives is the text between the two. -/
theorem enumerated_cut_in_bounds {output typed tag raw inner : List Char} {start : Nat}
    (htyped : typedValue output = .ok typed)
    (hsplit : Text.splitOnce ':' typed = some (tag, raw))
    (htag : Text.trim tag = "INTEGER".toList)
    (hstart : Text.byteOf? '(' (Text.trim raw) = some start)
    (hinner : Text.dropTail? [')'] (Text.trim raw) = some inner) :
    start + 1 ≤ Text.byteSize inner ∧
    (⟨start + 1⟩ : String.Pos.Raw).IsValid (.ofList inner) ∧
    ∃ label number,
      '(' ∉ label ∧ Text.trim raw = label ++ '(' :: (number ++ [')']) ∧
      Text.fromByte? inner (start + 1) = some number ∧
      enumerated (Text.trim raw) = number ∧
      parse output = do return .gauge (← readWhole number) := by
  obtain ⟨label, rest, hlabel, hvalue, rfl⟩ := Text.byteOf?_eq_some_iff.mp hstart
  have hclosed := Text.eq_append_of_dropTail? hinner
  rw [hvalue] at hclosed
  obtain ⟨number, rfl, rfl⟩ := Text.exists_between (by decide) hclosed
  have hopened : label ++ '(' :: number = (label ++ ['(']) ++ number := by
    rw [List.append_assoc, List.singleton_append]
  have hplace : Text.byteSize (label ++ ['(']) = Text.byteSize label + 1 := by
    rw [Text.byteSize_append]
    rfl
  have hnumber : Text.fromByte? (label ++ '(' :: number) (Text.byteSize label + 1) =
      some number := by
    rw [hopened, ← hplace]
    exact Text.fromByte?_append ..
  have hwhole : enumerated (Text.trim raw) = number := by
    rw [hvalue]
    exact enumerated_append hlabel number
  refine ⟨?_, ?_, label, number, hlabel, hvalue, hnumber, hwhole, ?_⟩
  · rw [hopened, Text.byteSize_append, hplace]
    exact Nat.le_add_right ..
  · exact Text.isSome_fromByte?_iff.mp (Option.isSome_of_eq_some hnumber)
  · rw [parse_integer htyped hsplit htag, hwhole]

/-- Parentheses in the label and inside the others, behind a character of two
bytes. -/
theorem enumerated_cut_in_bounds_of_nested :
    let inner := "é)((7)".toList
    4 ≤ Text.byteSize inner ∧ (⟨4⟩ : String.Pos.Raw).IsValid (.ofList inner) ∧
      Text.fromByte? inner 4 = some "(7)".toList ∧
      enumerated "é)((7))".toList = "(7)".toList ∧
      parse "x = INTEGER: é)((7))".toList =
        .error (.malformed (.expectedInteger "(7)")) := by
  obtain ⟨hsize, hvalid, label, number, -, -, hcut, hwhole, hparse⟩ :=
    @enumerated_cut_in_bounds "x = INTEGER: é)((7))".toList "INTEGER: é)((7))".toList
      "INTEGER".toList " é)((7))".toList "é)((7)".toList 3 rfl rfl rfl rfl rfl
  have hnumber : number = "(7)".toList := Option.some.inj (hcut.symm.trans rfl)
  rw [hnumber] at hcut hwhole hparse
  exact ⟨hsize, hvalid, hcut, hwhole, hparse⟩

end Source.Agent

end LinkTelemetry
