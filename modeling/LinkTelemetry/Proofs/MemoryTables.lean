import LinkTelemetry.Proofs.CompanionLines
import LinkTelemetry.Proofs.FloatWords
import LinkTelemetry.Proofs.ProcessorTimes
import LinkTelemetry.Proofs.Tables

/-!
# Tables of memory

The kernel prints a line for each of its figures about memory: a key, a colon,
and a number with its unit or without one. There are some fifty of them, in an
order that is not promised, and three of their keys matter. A key is found by
what a line starts with, and the colon behind it is what keeps a longer or a
shorter key from being taken for it (`dropHead?_label`).

So a figure is what a table says about its key and nothing else
(`memoryField?_of_table`), and the used share follows from three figures. It
is divided only by a total that is not zero.
-/

namespace LinkTelemetry

namespace Text

/-- A label is the one that is looked for or it does not match. -/
theorem dropHead?_label {key label : List Char} (hkey : ':' ∉ key) (hlabel : ':' ∉ label)
    (rest : List Char) :
    dropHead? (key ++ [':']) (label ++ ':' :: rest) = if label = key then some rest else none := by
  split
  · next h =>
      rw [dropHead?_eq_some_iff, h]
      simp
  · next h =>
      refine Option.eq_none_iff_forall_ne_some.mpr fun found hfound => h ?_
      have hsplit : splitOnce ':' (label ++ ':' :: rest) = some (key, found) := by
        rw [splitOnce_eq_some_iff, dropHead?_eq_some_iff.mp hfound]
        exact ⟨hkey, by simp⟩
      rw [splitOnce_append hlabel] at hsplit
      exact congrArg Prod.fst (Option.some.inj hsplit)

end Text

namespace Source.Procfs

open Text (Framed isBlank ReadOf Lined)

/-! ## Numbers with units -/

/-- A number, with its unit or without one. -/
inductive Measured (n : UInt64) : List Char → Prop where
  | bare : Measured n (Numeral.write n.toNat)
  | unit {gap : List Char} (hgap : ∀ c ∈ gap, isBlank c) :
      Measured n (Numeral.write n.toNat ++ gap ++ ['k', 'B'])

theorem dropUnits_append_unit (s : List Char) : dropUnits (s ++ ['k', 'B']) = dropUnits s := by
  simp [dropUnits, dropUnits.go]

theorem dropUnits_eq_self {s : List Char} (h : 'B' ∉ s) : dropUnits s = s := by
  have hgo : ∀ t, 'B' ∉ t → dropUnits.go t = t.reverse := by
    intro t ht
    rw [dropUnits.go.eq_def]
    split
    · next rest => simp at ht
    · rfl
  rw [dropUnits, hgo _ (by simpa using h), List.reverse_reverse]

section

variable {n : UInt64} {s value : List Char}

theorem unit_not_mem_write (m : Nat) : 'B' ∉ Numeral.write m :=
  fun h => absurd (Numeral.isDigit_of_mem_write h) (by decide)

namespace Measured

/-- It neither starts nor ends with a blank. -/
theorem trim_eq (h : Measured n s) : Text.trim s = s := by
  cases h with
  | bare => exact Text.stripWhile_eq_self not_isBlank_of_mem_write
  | @unit gap hgap =>
      have hunit : ∀ c ∈ ['k', 'B'], ¬ isBlank c := by simp [isBlank]
      have hfront := Text.stripWhile_append not_isBlank_of_mem_write (write_ne_nil n.toNat)
        [] (gap ++ ['k', 'B'])
      have hback := Text.dropEndWhile_append hunit (by simp) gap []
      rw [List.append_nil] at hback
      rw [Text.trim, List.append_assoc, ← List.nil_append (Numeral.write n.toNat ++ _),
        ← List.append_assoc, hfront, hback]
      simp [Text.dropEndWhile]

theorem read_eq (h : Measured n s) :
    Numeral.readUInt64? (Text.trim (dropUnits s)) = some n := by
  have hnumber : Numeral.readUInt64? (Numeral.write n.toNat) = some n :=
    Numeral.readUInt64?_eq_some_iff.mpr (Numeral.denotes_write n.toNat)
  cases h with
  | bare =>
      rw [dropUnits_eq_self (unit_not_mem_write _), Text.trim,
        Text.stripWhile_eq_self not_isBlank_of_mem_write, hnumber]
  | @unit gap hgap =>
      have hfree : 'B' ∉ Numeral.write n.toNat ++ gap := by
        rw [List.mem_append, not_or]
        exact ⟨unit_not_mem_write _, fun hmem => absurd (hgap 'B' hmem) (by decide)⟩
      have hframe : Framed isBlank (Numeral.write n.toNat) (Numeral.write n.toNat ++ gap) :=
        .append_right hgap
      rw [dropUnits_append_unit, dropUnits_eq_self hfree, Text.trim,
        hframe.stripWhile_eq not_isBlank_of_mem_write, hnumber]

end Measured

/-! ## One line -/

/-- A key and its figure. -/
abbrev Figure := String × UInt64

/-- The line of a figure, whatever blanks are around the number. -/
def Figure.Row (f : Figure) (line : List Char) : Prop :=
  ':' ∉ f.1.toList ∧ ∃ s value, line = f.1.toList ++ ':' :: value ∧ Measured f.2 s ∧
    Framed isBlank s value

def Figure.render (f : Figure) : List Char :=
  f.1.toList ++ ':' :: ' ' :: (Numeral.write f.2.toNat ++ [' ', 'k', 'B'])

theorem Figure.row_render (f : Figure) (hkey : ':' ∉ f.1.toList) : f.Row f.render := by
  have hgap : ∀ c ∈ [' '], isBlank c := by simp [isBlank]
  refine ⟨hkey, _, _, rfl, .unit hgap, ?_⟩
  exact ⟨[' '], [], by simp, hgap, by simp⟩

/-- What is read behind the colon is the number. -/
theorem Figure.Row.exists_read {f : Figure} {line read : List Char} (h : f.Row line)
    (hread : ReadOf read line) : ∃ rest, read = f.1.toList ++ ':' :: rest ∧
      Numeral.readUInt64? (Text.trim (dropUnits (Text.trim rest))) = some f.2 := by
  obtain ⟨-, s, value, rfl, hmeasured, hframe⟩ := h
  obtain ⟨rest, hrest, tail, rfl, htail⟩ := hread.exists_append (by decide)
  refine ⟨rest, hrest, ?_⟩
  have htrim : Text.trim rest = s := by
    calc Text.trim rest
      _ = Text.trim (rest ++ tail) := (Text.stripWhile_of_framed (.append_right htail)).symm
      _ = Text.trim s := Text.stripWhile_of_framed hframe
      _ = s := hmeasured.trim_eq
  rw [htrim, hmeasured.read_eq]

end

/-! ## The whole table -/

/-- The lines of some figures. -/
def MemoryTable (figures : List Figure) (text : List Char) : Prop :=
  ∃ lines, Lined lines text ∧ List.Forall₂ Figure.Row figures lines

section

variable {figures : List Figure} {text : List Char}

theorem findSome?_of_rows {lines reads : List (List Char)}
    (hrows : List.Forall₂ Figure.Row figures lines) (hreads : List.Forall₂ ReadOf reads lines)
    {key : String} (hkey : ':' ∉ key.toList) :
    ((reads.findSome? (Text.dropHead? (key.toList ++ [':']))).bind fun rest =>
      Numeral.readUInt64? (Text.trim (dropUnits (Text.trim rest)))) = figures.lookup key := by
  induction hrows generalizing reads with
  | nil =>
      cases hreads
      rfl
  | @cons f line figures lines hrow hrows ih =>
      obtain - | ⟨hread, hreads⟩ := hreads
      obtain ⟨rest, rfl, hnumber⟩ := hrow.exists_read hread
      obtain ⟨label, n⟩ := f
      rw [List.findSome?_cons, Text.dropHead?_label hkey hrow.1, List.lookup_cons]
      by_cases h : label = key
      · simpa [h] using hnumber
      · have hne : label.toList ≠ key.toList := fun heq => h (String.toList_inj.mp heq)
        rw [if_neg hne, beq_false_of_ne (Ne.symm h)]
        exact ih hreads

/-- The first figure of a key counts, and no other figure matters. -/
theorem memoryField?_of_table (h : MemoryTable figures text) (key label : String)
    (hlabel : label.toList = key.toList ++ [':']) (hkey : ':' ∉ key.toList) :
    memoryField? text label = figures.lookup key := by
  obtain ⟨lines, hlined, hrows⟩ := h
  rw [memoryField?, hlabel]
  exact findSome?_of_rows hrows hlined.readOf hkey

/-- The smaller one of two numbers can be taken from either. -/
theorem toNat_sub_min (t a : UInt64) :
    (t - min t a).toNat = t.toNat - min t.toNat a.toNat := by
  have hmin : min t a = if t ≤ a then t else a := rfl
  rw [hmin]
  split
  · next h =>
      rw [UInt64.le_iff_toNat_le] at h
      rw [UInt64.sub_self, Nat.min_eq_left h, Nat.sub_self]
      rfl
  · next h =>
      rw [UInt64.le_iff_toNat_le, Nat.not_le] at h
      rw [UInt64.toNat_sub_of_le _ _ (UInt64.le_iff_toNat_le.mpr h.le), Nat.min_eq_right h.le]

theorem saturatingSub_eq (t a : UInt64) : saturatingSub t a = t - min t a := by
  rw [← UInt64.toNat_inj, toNat_saturatingSub, toNat_sub_min]
  omega

/-- The memory that is available by the first of two figures that is there. -/
def Available (figures : List Figure) (a : UInt64) : Prop :=
  ("MemAvailable", a) ∈ figures ∨
    (∀ n, ("MemAvailable", n) ∉ figures) ∧ ("MemFree", a) ∈ figures

theorem mem_iff_lookup (hkeys : (figures.map (·.1)).Nodup) (key : String) (n : UInt64) :
    (key, n) ∈ figures ↔ figures.lookup key = some n :=
  ⟨lookup_of_mem hkeys, mem_of_lookup⟩

theorem available_iff (hkeys : (figures.map (·.1)).Nodup) {a : UInt64} :
    Available figures a ↔
      (figures.lookup "MemAvailable").or (figures.lookup "MemFree") = some a := by
  rw [Available, mem_iff_lookup hkeys, mem_iff_lookup hkeys]
  simp only [mem_iff_lookup hkeys, ← Option.eq_none_iff_forall_ne_some, Option.or_eq_some_iff]

/-- What is read of a table by its figures. -/
theorem parseMemory_of_table (h : MemoryTable figures text) :
    parseMemory text =
      match figures.lookup "MemTotal" with
      | none => .error (.malformed .noTotalMemory)
      | some t =>
        match (figures.lookup "MemAvailable").or (figures.lookup "MemFree") with
        | none => .error (.malformed .noAvailableMemory)
        | some a =>
          if t = 0 then .error (.malformed .zeroTotalMemory)
          else .ok ((t - min t a).toFloat / t.toFloat * 100) := by
  have htotal := memoryField?_of_table h "MemTotal" "MemTotal:" rfl (by decide)
  have havailable := memoryField?_of_table h "MemAvailable" "MemAvailable:" rfl (by decide)
  have hfree := memoryField?_of_table h "MemFree" "MemFree:" rfl (by decide)
  rw [parseMemory, htotal, havailable, hfree]
  cases figures.lookup "MemTotal" with
  | none => rfl
  | some t =>
      cases (figures.lookup "MemAvailable").or (figures.lookup "MemFree") with
      | none => rfl
      | some a => simp only [saturatingSub_eq]

theorem parseMemory_eq_ok_iff (h : MemoryTable figures text)
    (hkeys : (figures.map (·.1)).Nodup) (x : Float) :
    parseMemory text = .ok x ↔ ∃ t a, ("MemTotal", t) ∈ figures ∧ t ≠ 0 ∧
      Available figures a ∧ x = (t - min t a).toFloat / t.toFloat * 100 := by
  simp only [mem_iff_lookup hkeys, available_iff hkeys]
  rw [parseMemory_of_table h]
  constructor
  · intro hx
    split at hx
    · cases hx
    · next t ht =>
        split at hx
        · cases hx
        · next a ha =>
            split at hx
            · cases hx
            · next hzero => exact ⟨t, a, ht, hzero, ha, (Except.ok.inj hx).symm⟩
  · rintro ⟨t, a, ht, hzero, ha, rfl⟩
    simp only [ht, ha, if_neg hzero]

theorem parseMemory_eq_malformed_iff (h : MemoryTable figures text)
    (hkeys : (figures.map (·.1)).Nodup) :
    (∃ cause, parseMemory text = .error (.malformed cause)) ↔
      (∀ t, ("MemTotal", t) ∈ figures → t = 0) ∨
      (∀ a, ("MemAvailable", a) ∉ figures) ∧ ∀ a, ("MemFree", a) ∉ figures := by
  simp only [mem_iff_lookup hkeys, ← Option.eq_none_iff_forall_ne_some, ← Option.or_eq_none_iff]
  rw [parseMemory_of_table h]
  constructor
  · rintro ⟨cause, herror⟩
    split at herror
    · next ht => simp [ht]
    · next t ht =>
        split at herror
        · next ha => exact .inr ha
        · split at herror
          · next hzero =>
              refine .inl fun t' ht' => ?_
              rw [← Option.some.inj (ht.symm.trans ht'), hzero]
          · cases herror
  · intro hnone
    split
    · exact ⟨_, rfl⟩
    · next t ht =>
        split
        · exact ⟨_, rfl⟩
        · next a ha =>
            have hzero : t = 0 := (hnone.resolve_right (by simp [ha])) t ht
            rw [if_pos hzero]
            exact ⟨_, rfl⟩

theorem zero_lt_toFloat {t : UInt64} (h : t ≠ 0) : 0 < t.toFloat := by
  have hpos : 0 < t.toNat := Nat.pos_of_ne_zero fun hzero => h (UInt64.toNat_inj.mp hzero)
  exact Binary64.toFloat_lt_of_eq_zero (m := 0) rfl hpos

/-- The used share of a memory is what its total and the first of two other
figures come to, whatever else the table has and in whatever order. Where they
are not there or the total is zero the table is malformed, so nothing is
divided by zero and nothing is taken from less than it. -/
theorem memory_share_of_figures (htable : MemoryTable figures text)
    (hkeys : (figures.map (·.1)).Nodup) :
    (∀ x, parseMemory text = .ok x ↔ ∃ t a, ("MemTotal", t) ∈ figures ∧ t ≠ 0 ∧
      Available figures a ∧ x = (t - min t a).toFloat / t.toFloat * 100) ∧
    ((∃ cause, parseMemory text = .error (.malformed cause)) ↔
      (∀ t, ("MemTotal", t) ∈ figures → t = 0) ∨
      (∀ a, ("MemAvailable", a) ∉ figures) ∧ ∀ a, ("MemFree", a) ∉ figures) ∧
    (∀ figures' text', MemoryTable figures' text' → figures'.Perm figures →
      parseMemory text' = parseMemory text) ∧
    ∀ t a : UInt64, (t - min t a).toNat = t.toNat - min t.toNat a.toNat ∧
      (t ≠ 0 → 0 < t.toFloat) := by
  refine ⟨parseMemory_eq_ok_iff htable hkeys, parseMemory_eq_malformed_iff htable hkeys, ?_, ?_⟩
  · intro figures' text' htable' hperm
    rw [parseMemory_of_table htable, parseMemory_of_table htable']
    simp only [lookup_perm hperm hkeys]
  · intro t a
    exact ⟨toNat_sub_min t a, zero_lt_toFloat⟩

end

/-- A kernel that says more is available than there is, a key that starts like
one of those that matter, and a key that ends like one. -/
theorem memory_share_of_figures_past_similar_keys :
    let figures : List Figure := [("MemTotalHuge", 3), ("MemAvailable", 18446744073709551615),
      ("SwapMemTotal", 5), ("MemTotal", 8), ("MemFree", 2)]
    let text := Figure.render ("MemTotalHuge", 3) ++ '\n' ::
      (Figure.render ("MemAvailable", 18446744073709551615) ++ '\n' ::
      (Figure.render ("SwapMemTotal", 5) ++ '\n' ::
      (Figure.render ("MemTotal", 8) ++ '\n' :: Figure.render ("MemFree", 2))))
    MemoryTable figures text ∧ (figures.map (·.1)).Nodup ∧ parseMemory text = .ok 0 := by
  intro figures text
  have hnodup : (figures.map (·.1)).Nodup := by decide
  have htable : MemoryTable figures text := by
    refine ⟨[_, _, _, _, _], .cons ?_ (.cons ?_ (.cons ?_ (.cons ?_ (.last ?_ ?_)))),
      .cons (Figure.row_render _ ?_) (.cons (Figure.row_render _ ?_) (.cons (Figure.row_render _ ?_)
        (.cons (Figure.row_render _ ?_) (.cons (Figure.row_render _ ?_) .nil))))⟩
    all_goals decide +kernel
  obtain ⟨hshare, -, -, -⟩ := memory_share_of_figures htable hnodup
  refine ⟨htable, hnodup, (hshare 0).mpr ⟨8, 18446744073709551615, by decide, by decide, ?_, ?_⟩⟩
  · exact .inl (by decide)
  · decide +kernel

end Source.Procfs

end LinkTelemetry
