import LinkTelemetry.Proofs.Framing
import Mathlib.Data.List.Forall2

/-!
# Texts in lines and columns

Kernels and agents print lines, and lines have columns. The readers cut both
apart again, and this file says what they find: the lines that were printed
(`Lined.readOf`) and the words in the columns (`Columns.words_eq`).

A line is not always read to its end. The carriage return in front of a line
feed belongs to the line feed, so a line that ends with one comes back without
it. `ReadOf` allows for this, and since a carriage return is a blank nothing
that trims or counts words can tell the difference.
-/

namespace LinkTelemetry.Text

/-! ## Lines -/

/-- A text written in lines. The last one needs no line feed. -/
inductive Lined : List (List Char) → List Char → Prop where
  | nil : Lined [] []
  | last {line : List Char} (hline : '\n' ∉ line) (hne : line ≠ []) : Lined [line] line
  | cons {line text : List Char} {more : List (List Char)} (hline : '\n' ∉ line)
      (h : Lined more text) : Lined (line :: more) (line ++ '\n' :: text)

/-- What is read of a line: all of it but blanks at its end. -/
def ReadOf (read line : List Char) : Prop := ∃ tail, line = read ++ tail ∧ ∀ c ∈ tail, isBlank c

theorem ReadOf.refl (line : List Char) : ReadOf line line := ⟨[], by simp, by simp⟩

/-- A character that is no blank is read, and so is all in front of it. -/
theorem ReadOf.exists_append {read before after : List Char} {c : Char} (hc : ¬ isBlank c)
    (h : ReadOf read (before ++ c :: after)) :
    ∃ rest, read = before ++ c :: rest ∧ ReadOf rest after := by
  obtain ⟨tail, hline, htail⟩ := h
  have hfree : ∀ s t, tail ≠ s ++ c :: t := by
    rintro s t rfl
    exact hc (htail c (by simp))
  rcases List.append_eq_append_iff.mp hline with ⟨rest, hread, hrest⟩ | ⟨rest, -, hrest⟩
  · cases rest with
    | nil => exact absurd hrest.symm (hfree [] after)
    | cons d rest =>
        obtain ⟨rfl, rfl⟩ := List.cons.inj hrest
        exact ⟨rest, hread, tail, rfl, htail⟩
  · exact absurd hrest (hfree rest after)

theorem lines_cons {c : Char} {s : List Char} (hc : c ≠ '\n')
    (hreturn : ∀ rest, c = '\r' → s ≠ '\n' :: rest) :
    lines (c :: s) = match lines s with
      | [] => [[c]]
      | line :: more => (c :: line) :: more := by
  rw [lines.eq_def]
  split
  · next h => cases h
  · next h => exact absurd (List.cons.inj h).1 hc
  · next rest h => exact absurd (List.cons.inj h).2 (hreturn rest (List.cons.inj h).1)
  · next h =>
      cases h
      rfl

theorem lines_of_not_mem {line : List Char} (hline : '\n' ∉ line) (hne : line ≠ []) :
    lines line = [line] := by
  induction line with
  | nil => exact absurd rfl hne
  | cons c rest ih =>
      rw [List.mem_cons, not_or] at hline
      have hreturn : ∀ more, c = '\r' → rest ≠ '\n' :: more := by
        rintro more - rfl
        exact hline.2 List.mem_cons_self
      rw [lines_cons (Ne.symm hline.1) hreturn]
      cases rest with
      | nil => rfl
      | cons d rest => rw [ih hline.2 (List.cons_ne_nil d rest)]

theorem lines_append_newline {line : List Char} (hline : '\n' ∉ line) (rest : List Char) :
    ∃ read, lines (line ++ '\n' :: rest) = read :: lines rest ∧ ReadOf read line := by
  induction line with
  | nil => exact ⟨[], rfl, .refl []⟩
  | cons c line ih =>
      rw [List.mem_cons, not_or] at hline
      by_cases hreturn : c = '\r' ∧ line = []
      · obtain ⟨rfl, rfl⟩ := hreturn
        exact ⟨[], rfl, ['\r'], rfl, by simp [isBlank]⟩
      · obtain ⟨read, hread, tail, rfl, htail⟩ := ih hline.2
        refine ⟨c :: read, ?_, tail, rfl, htail⟩
        have hcons : ∀ more, c = '\r' → read ++ tail ++ '\n' :: rest ≠ '\n' :: more := by
          rintro more rfl heq
          cases hs : read ++ tail with
          | nil => exact hreturn ⟨rfl, hs⟩
          | cons d s =>
              rw [hs, List.cons_append, List.cons.injEq] at heq
              exact hline.2 (by simp [hs, heq.1])
        rw [List.cons_append, lines_cons (Ne.symm hline.1) hcons, hread]

theorem Lined.readOf {written : List (List Char)} {text : List Char} (h : Lined written text) :
    List.Forall₂ ReadOf (lines text) written := by
  induction h with
  | nil => exact .nil
  | last hline hne =>
      rw [lines_of_not_mem hline hne]
      exact .cons (.refl _) .nil
  | @cons line text more hline h ih =>
      obtain ⟨read, hread, hreadOf⟩ := lines_append_newline hline text
      rw [hread]
      exact .cons hreadOf ih

/-- Every line has a character at least, be it the line feed. -/
theorem Lined.length_le {written : List (List Char)} {text : List Char} (h : Lined written text) :
    written.length ≤ text.length := by
  induction h with
  | nil => exact Nat.le_refl 0
  | last hline hne => exact List.length_pos_iff.mpr hne
  | cons hline h ih =>
      simp only [List.length_cons, List.length_append]
      omega

/-! ## The first line that is not blank -/

def firstLine? (text : List Char) : Option (List Char) :=
  ((lines text).map trim).find? (!·.isEmpty)

theorem trim_cons_blank {c : Char} (hc : isBlank c) (s : List Char) : trim (c :: s) = trim s :=
  stripWhile_of_framed ⟨[c], [], by simp, by simpa using hc, by simp⟩

theorem firstLine?_cons_blank {c : Char} (hc : isBlank c) (text : List Char) :
    firstLine? (c :: text) = firstLine? text := by
  by_cases hfeed : c = '\n'
  · subst hfeed
    rfl
  · by_cases hreturn : c = '\r' ∧ ∃ rest, text = '\n' :: rest
    · obtain ⟨rfl, rest, rfl⟩ := hreturn
      rfl
    · have hlines : lines (c :: text) = _ :=
        lines_cons hfeed fun rest hc htext => hreturn ⟨hc, rest, htext⟩
      rw [firstLine?, firstLine?, hlines]
      cases lines text with
      | nil => simp [trim_cons_blank hc, show trim [] = [] from rfl]
      | cons line more => simp [trim_cons_blank hc]

theorem firstLine?_blanks_append {before : List Char} (h : ∀ c ∈ before, isBlank c)
    (text : List Char) : firstLine? (before ++ text) = firstLine? text := by
  induction before with
  | nil => rfl
  | cons c before ih =>
      rw [List.cons_append, firstLine?_cons_blank (h c List.mem_cons_self)]
      exact ih fun d hd => h d (List.mem_cons_of_mem c hd)

/-- A text of blank lines, the line in question, and any other lines. -/
def Opens (line text : List Char) : Prop :=
  ∃ before after, text = before ++ line ++ after ∧ (∀ c ∈ before, isBlank c) ∧
    ∀ c ∈ after.head?, c = '\n'

theorem Opens.firstLine?_eq {line text : List Char} (h : Opens line text) (hline : '\n' ∉ line)
    (hblank : ¬ ∀ c ∈ line, isBlank c) : firstLine? text = some (trim line) := by
  obtain ⟨before, after, rfl, hbefore, hafter⟩ := h
  have hne : (trim line).isEmpty = false := by
    rw [List.isEmpty_eq_false_iff, ne_eq, trim, stripWhile_eq_nil_iff]
    exact hblank
  rw [List.append_assoc, firstLine?_blanks_append hbefore, firstLine?]
  cases after with
  | nil =>
      have hnil : line ≠ [] := by
        rintro rfl
        exact hblank (by simp)
      rw [List.append_nil, lines_of_not_mem hline hnil]
      simp [hne]
  | cons c rest =>
      obtain rfl : c = '\n' := hafter c rfl
      obtain ⟨read, hread, tail, rfl, htail⟩ := lines_append_newline hline rest
      have htrim : trim (read ++ tail) = trim read := stripWhile_of_framed (.append_right htail)
      rw [htrim] at hne ⊢
      rw [hread]
      simp [hne]

/-! ## Columns -/

theorem words_append_cons {c : Char} (hc : isBlank c) (s t : List Char) :
    words (s ++ c :: t) = words s ++ words t := by
  rw [words, pieces_append_cons hc, List.filter_append, words, words]

theorem words_nil : words [] = [] := rfl

theorem words_cons_blank {c : Char} (hc : isBlank c) (s : List Char) : words (c :: s) = words s :=
  words_append_cons hc [] s

theorem words_blanks_append {s : List Char} (hs : ∀ c ∈ s, isBlank c) (t : List Char) :
    words (s ++ t) = words t := by
  induction s with
  | nil => rfl
  | cons c s ih =>
      rw [List.cons_append, words_cons_blank (hs c List.mem_cons_self)]
      exact ih fun d hd => hs d (List.mem_cons_of_mem c hd)

theorem words_of_blanks {s : List Char} (hs : ∀ c ∈ s, isBlank c) : words s = [] := by
  rw [← List.append_nil s, words_blanks_append hs, words_nil]

theorem words_append_blanks {t : List Char} (ht : ∀ c ∈ t, isBlank c) (s : List Char) :
    words (s ++ t) = words s := by
  cases t with
  | nil => rw [List.append_nil]
  | cons c t =>
      rw [List.forall_mem_cons] at ht
      rw [words_append_cons ht.1, words_of_blanks ht.2, List.append_nil]

theorem words_of_forall {word : List Char} (hne : word ≠ []) (h : ∀ c ∈ word, ¬ isBlank c) :
    words word = [word] := by
  rw [words, pieces_of_forall h, List.filter_singleton, List.isEmpty_eq_false_iff.mpr hne]
  rfl

/-- Words in their order, with blanks between them. -/
inductive Columns : List (List Char) → List Char → Prop where
  | nil {gap : List Char} (hgap : ∀ c ∈ gap, isBlank c) : Columns [] gap
  | cons {gap word rest : List Char} {more : List (List Char)} (hgap : ∀ c ∈ gap, isBlank c)
      (hne : word ≠ []) (hword : ∀ c ∈ word, ¬ isBlank c) (hrest : ∀ c ∈ rest.head?, isBlank c)
      (h : Columns more rest) : Columns (word :: more) (gap ++ word ++ rest)

theorem Columns.words_eq {columns : List (List Char)} {text : List Char}
    (h : Columns columns text) : words text = columns := by
  induction h with
  | nil hgap => exact words_of_blanks hgap
  | @cons gap word rest more hgap hne hword hrest h ih =>
      rw [List.append_assoc, words_blanks_append hgap]
      cases rest with
      | nil => rw [List.append_nil, words_of_forall hne hword, ← ih, words_nil]
      | cons c rest =>
          have hc := hrest c rfl
          rw [words_append_cons hc, words_of_forall hne hword, ← ih, words_cons_blank hc]
          rfl

theorem Columns.cons_blank {columns : List (List Char)} {text : List Char} {c : Char}
    (hc : isBlank c) (h : Columns columns text) : Columns columns (c :: text) := by
  cases h with
  | nil hgap => exact .nil (List.forall_mem_cons.mpr ⟨hc, hgap⟩)
  | @cons gap word rest more hgap hne hword hrest h =>
      have hgap' : ∀ d ∈ c :: gap, isBlank d := List.forall_mem_cons.mpr ⟨hc, hgap⟩
      exact .cons hgap' hne hword hrest h

/-- Whatever a text is, it is words in columns. -/
theorem exists_columns (text : List Char) : ∃ columns, Columns columns text := by
  induction text with
  | nil => exact ⟨[], .nil (by simp)⟩
  | cons c text ih =>
      obtain ⟨columns, h⟩ := ih
      by_cases hc : isBlank c
      · exact ⟨columns, h.cons_blank hc⟩
      · have hnone : ∀ d ∈ ([] : List Char), isBlank d := by simp
        have hone : ∀ d ∈ [c], ¬ isBlank d := by simpa using hc
        cases h with
        | nil hgap =>
            refine ⟨[[c]], .cons hnone (by simp) hone ?_ (.nil hgap)⟩
            exact fun d hd => hgap d (List.mem_of_mem_head? hd)
        | @cons gap word rest more hgap hne hword hrest h =>
            cases gap with
            | nil =>
                have hword' : ∀ d ∈ c :: word, ¬ isBlank d := List.forall_mem_cons.mpr ⟨hc, hword⟩
                exact ⟨(c :: word) :: more, .cons hnone (by simp) hword' hrest h⟩
            | cons b gap =>
                refine ⟨[c] :: word :: more, .cons hnone (by simp) hone ?_
                  (.cons hgap hne hword hrest h)⟩
                simpa using hgap b List.mem_cons_self

end LinkTelemetry.Text
