import LinkTelemetry.Text.Split
import Mathlib.Data.List.TakeWhile

/-!
# Texts in a frame

Readers cut: blanks and quotes off the ends, a unit off the end, the first
word off a line. None of it ever reaches into the middle, and that is all the
proofs about readers need to know. `Framed p inner s` says it once: `s` is
`inner` between characters of the kind `p`. Every cut relates its result to
its argument in this way, cuts compose because frames do, and a text has one
framed part only if the part itself is free of the kind (`Framed.unique`).

The second half of the file goes the other way, from a text that is known to
be framed to what a cut leaves of it.
-/

namespace LinkTelemetry.Text

/-- A text between characters of one kind. -/
def Framed (p : Char → Bool) (inner s : List Char) : Prop :=
  ∃ before after, s = before ++ inner ++ after ∧ (∀ c ∈ before, p c) ∧ ∀ c ∈ after, p c

section

variable {p q : Char → Bool} {s t u : List Char}

namespace Framed

theorem refl (p : Char → Bool) (s : List Char) : Framed p s s :=
  ⟨[], [], by simp, by simp, by simp⟩

theorem trans (h : Framed p s t) (h' : Framed p t u) : Framed p s u := by
  obtain ⟨before, after, rfl, hbefore, hafter⟩ := h
  obtain ⟨before', after', rfl, hbefore', hafter'⟩ := h'
  refine ⟨before' ++ before, after ++ after', by simp, ?_, ?_⟩
  · intro c hc
    rcases List.mem_append.mp hc with hc | hc
    · exact hbefore' c hc
    · exact hbefore c hc
  · intro c hc
    rcases List.mem_append.mp hc with hc | hc
    · exact hafter c hc
    · exact hafter' c hc

theorem mono (hpq : ∀ c, p c → q c) (h : Framed p s t) : Framed q s t := by
  obtain ⟨before, after, ht, hbefore, hafter⟩ := h
  exact ⟨before, after, ht, fun c hc => hpq c (hbefore c hc), fun c hc => hpq c (hafter c hc)⟩

theorem append_right (h : ∀ c ∈ t, p c) : Framed p s (s ++ t) :=
  ⟨[], t, by simp, by simp, h⟩

theorem filter_eq (h : Framed p s t) (hs : ∀ c ∈ s, ¬ p c) : t.filter (!p ·) = s := by
  obtain ⟨before, after, rfl, hbefore, hafter⟩ := h
  have hnone : before.filter (!p ·) = [] := List.filter_eq_nil_iff.mpr (by simpa using hbefore)
  have hnone' : after.filter (!p ·) = [] := List.filter_eq_nil_iff.mpr (by simpa using hafter)
  have hall : s.filter (!p ·) = s := List.filter_eq_self.mpr (by simpa using hs)
  rw [List.filter_append, List.filter_append, hnone, hnone', hall, List.nil_append,
    List.append_nil]

/-- Two parts of a text in frames of one kind are the same part. -/
theorem unique (hs : Framed p s u) (ht : Framed p t u) (hps : ∀ c ∈ s, ¬ p c)
    (hpt : ∀ c ∈ t, ¬ p c) : s = t :=
  (hs.filter_eq hps).symm.trans (ht.filter_eq hpt)

/-- What is true of the frame and of what it holds is true of the whole. -/
theorem forall_mem {P : Char → Prop} (h : Framed p s t) (hp : ∀ c, p c → P c)
    (hs : ∀ c ∈ s, P c) : ∀ c ∈ t, P c := by
  obtain ⟨before, after, rfl, hbefore, hafter⟩ := h
  intro c hc
  rcases List.mem_append.mp hc with hc | hc
  · rcases List.mem_append.mp hc with hc | hc
    · exact hp c (hbefore c hc)
    · exact hs c hc
  · exact hp c (hafter c hc)

end Framed

/-! ## Every cut leaves a framed part -/

theorem exists_dropWhile (p : Char → Bool) (s : List Char) :
    ∃ before, s = before ++ s.dropWhile p ∧ ∀ c ∈ before, p c :=
  ⟨s.takeWhile p, List.takeWhile_append_dropWhile.symm, fun _ hc => List.mem_takeWhile_imp hc⟩

theorem exists_dropEndWhile (p : Char → Bool) (s : List Char) :
    ∃ after, s = dropEndWhile p s ++ after ∧ ∀ c ∈ after, p c := by
  obtain ⟨before, hsplit, hbefore⟩ := exists_dropWhile p s.reverse
  refine ⟨before.reverse, ?_, fun c hc => hbefore c (List.mem_reverse.mp hc)⟩
  rw [dropEndWhile, ← List.reverse_append, ← hsplit, List.reverse_reverse]

theorem framed_stripWhile (p : Char → Bool) (s : List Char) : Framed p (stripWhile p s) s := by
  obtain ⟨before, hsplit, hbefore⟩ := exists_dropWhile p s
  obtain ⟨after, hsplit', hafter⟩ := exists_dropEndWhile p (s.dropWhile p)
  refine ⟨before, after, ?_, hbefore, hafter⟩
  rw [stripWhile, List.append_assoc, ← hsplit', ← hsplit]

theorem framed_dropEndWhile (p : Char → Bool) (s : List Char) : Framed p (dropEndWhile p s) s := by
  obtain ⟨after, hsplit, hafter⟩ := exists_dropEndWhile p s
  exact ⟨[], after, by simpa using hsplit, by simp, hafter⟩

theorem eq_append_of_dropHead? {head rest : List Char} (h : dropHead? head s = some rest) :
    s = head ++ rest := by
  induction head generalizing s with
  | nil => exact Option.some.inj h
  | cons c head ih =>
      cases s with
      | nil => cases h
      | cons d s =>
          rw [dropHead?] at h
          split at h
          · next hcd =>
              rw [ih h, beq_iff_eq.mp hcd]
              rfl
          · cases h

theorem dropHead?_eq_some_iff {head rest : List Char} :
    dropHead? head s = some rest ↔ s = head ++ rest := by
  constructor
  · exact eq_append_of_dropHead?
  · rintro rfl
    induction head with
    | nil => rfl
    | cons c head ih => simpa [dropHead?] using ih

theorem isSome_dropHead?_iff (head s : List Char) : (dropHead? head s).isSome ↔ head <+: s := by
  rw [Option.isSome_iff_exists]
  exact exists_congr fun _ => dropHead?_eq_some_iff.trans eq_comm

theorem eq_append_of_dropTail? {tail rest : List Char} (h : dropTail? tail s = some rest) :
    s = rest ++ tail := by
  obtain ⟨front, hfront, rfl⟩ := Option.map_eq_some_iff.mp h
  rw [← List.reverse_inj, List.reverse_append, List.reverse_reverse]
  exact eq_append_of_dropHead? hfront

theorem framed_dropTail? {tail : List Char} (htail : ∀ c ∈ tail, p c) (s : List Char) :
    Framed p ((dropTail? tail s).getD s) s := by
  cases h : dropTail? tail s with
  | none => exact .refl p s
  | some rest => exact ⟨[], tail, eq_append_of_dropTail? h, by simp, htail⟩

/-! ## What a cut leaves of a framed part -/

theorem dropEndWhile_append_of_forall (h : ∀ c ∈ t, p c) :
    dropEndWhile p (s ++ t) = dropEndWhile p s := by
  rw [dropEndWhile, List.reverse_append, List.dropWhile_append_of_pos (by simpa using h),
    dropEndWhile]

/-- A frame of what is cut makes no difference to the cut. -/
theorem stripWhile_of_framed (h : Framed p s t) : stripWhile p t = stripWhile p s := by
  obtain ⟨before, after, rfl, hbefore, hafter⟩ := h
  rw [stripWhile, List.append_assoc, List.dropWhile_append_of_pos hbefore, List.dropWhile_append]
  split
  · next hnil =>
      rw [List.dropWhile_eq_nil_iff.mpr hafter, stripWhile, List.isEmpty_iff.mp hnil]
  · exact dropEndWhile_append_of_forall hafter

theorem stripWhile_eq_self (h : ∀ c ∈ s, ¬ p c) : stripWhile p s = s := by
  have hdrop : ∀ t : List Char, (∀ c ∈ t, ¬ p c) → t.dropWhile p = t := by
    intro t ht
    exact List.dropWhile_eq_self_iff.mpr fun hl => ht _ (List.getElem_mem hl)
  rw [stripWhile, dropEndWhile, hdrop s h, hdrop s.reverse (by simpa using h), List.reverse_reverse]

theorem Framed.stripWhile_eq (h : Framed p s t) (hs : ∀ c ∈ s, ¬ p c) : Text.stripWhile p t = s :=
  (stripWhile_of_framed h).trans (stripWhile_eq_self hs)

/-- A part of a text in a frame that ends where the part begins, and begins
where it ends. -/
structure Stripped (p : Char → Bool) (inner s : List Char) : Prop where
  framed : Framed p inner s
  head : ∀ c ∈ inner.head?, ¬ p c
  last : ∀ c ∈ inner.getLast?, ¬ p c

theorem dropWhile_eq_self_of_head (h : ∀ c ∈ s.head?, ¬ p c) : s.dropWhile p = s := by
  cases s with
  | nil => rfl
  | cons c rest => exact List.dropWhile_cons_of_neg (h c rfl)

theorem not_of_head?_dropWhile {c : Char} (h : c ∈ (s.dropWhile p).head?) : ¬ p c := by
  have hstop := List.head?_dropWhile_not p s
  rw [h] at hstop
  rw [hstop]
  exact Bool.false_ne_true

theorem stripped_stripWhile (p : Char → Bool) (s : List Char) :
    Stripped p (stripWhile p s) s where
  framed := framed_stripWhile p s
  head := by
    intro c hc
    obtain ⟨after, hsplit, -⟩ := exists_dropEndWhile p (s.dropWhile p)
    have hhead : (s.dropWhile p).head? = some c := by
      rw [hsplit, List.head?_append, ← stripWhile, Option.mem_def.mp hc, Option.some_or]
    exact not_of_head?_dropWhile hhead
  last := by
    intro c hc
    rw [stripWhile, dropEndWhile, List.getLast?_reverse] at hc
    exact not_of_head?_dropWhile hc

/-- What a cut leaves is known by its frame and its ends. -/
theorem stripWhile_eq_iff {inner : List Char} : stripWhile p s = inner ↔ Stripped p inner s := by
  constructor
  · rintro rfl
    exact stripped_stripWhile p s
  · intro h
    have hlast : inner.reverse.dropWhile p = inner.reverse :=
      dropWhile_eq_self_of_head (by rw [List.head?_reverse]; exact h.last)
    rw [stripWhile_of_framed h.framed, stripWhile, dropWhile_eq_self_of_head h.head, dropEndWhile,
      hlast, List.reverse_reverse]

theorem stripWhile_eq_nil_iff : stripWhile p s = [] ↔ ∀ c ∈ s, p c := by
  constructor
  · intro h
    obtain ⟨before, after, hs, hbefore, hafter⟩ := framed_stripWhile p s
    rw [h, List.append_nil] at hs
    intro c hc
    rw [hs] at hc
    rcases List.mem_append.mp hc with hc | hc
    · exact hbefore c hc
    · exact hafter c hc
  · intro h
    have hframe : Framed p [] s := ⟨s, [], by simp, h, by simp⟩
    exact stripWhile_of_framed hframe

section

variable {c : Char}

theorem dropWhile_append_cons (hc : ¬ p c) (a b : List Char) :
    (a ++ c :: b).dropWhile p = a.dropWhile p ++ c :: b := by
  rw [List.dropWhile_append]
  split
  · next hnil =>
      rw [List.isEmpty_iff.mp hnil, List.dropWhile_cons_of_neg hc, List.nil_append]
  · rfl

theorem dropEndWhile_append_cons (hc : ¬ p c) (a b : List Char) :
    dropEndWhile p (a ++ c :: b) = a ++ c :: dropEndWhile p b := by
  have hsplit : (a ++ c :: b).reverse = b.reverse ++ c :: a.reverse := by simp
  rw [dropEndWhile, hsplit, dropWhile_append_cons hc, dropEndWhile]
  simp

theorem stripWhile_append_cons (hc : ¬ p c) (a b : List Char) :
    stripWhile p (a ++ c :: b) = a.dropWhile p ++ c :: dropEndWhile p b := by
  rw [stripWhile, dropWhile_append_cons hc, dropEndWhile_append_cons hc]

end

theorem dropWhile_append {s : List Char} (hs : ∀ c ∈ s, ¬ p c) (hne : s ≠ []) (a b : List Char) :
    (a ++ s ++ b).dropWhile p = a.dropWhile p ++ s ++ b := by
  obtain ⟨c, rest, rfl⟩ := List.exists_cons_of_ne_nil hne
  rw [List.append_assoc, List.cons_append, dropWhile_append_cons (hs c List.mem_cons_self),
    List.append_assoc, List.cons_append]

theorem dropEndWhile_append {s : List Char} (hs : ∀ c ∈ s, ¬ p c) (hne : s ≠ [])
    (a b : List Char) : dropEndWhile p (a ++ s ++ b) = a ++ s ++ dropEndWhile p b := by
  obtain ⟨front, c, rfl⟩ := (List.eq_nil_or_concat s).resolve_left hne
  have hc := hs c (by simp)
  have hsplit : ∀ t, a ++ front.concat c ++ t = (a ++ front) ++ c :: t := by simp
  rw [hsplit, hsplit, dropEndWhile_append_cons hc]

/-- A cut at the ends stops at a part that is free of what is cut. -/
theorem stripWhile_append {s : List Char} (hs : ∀ c ∈ s, ¬ p c) (hne : s ≠ []) (a b : List Char) :
    stripWhile p (a ++ s ++ b) = a.dropWhile p ++ s ++ dropEndWhile p b := by
  rw [stripWhile, dropWhile_append hs hne, dropEndWhile_append hs hne]

theorem mem_of_mem_dropEndWhile {c : Char} (hc : c ∈ dropEndWhile p s) : c ∈ s := by
  obtain ⟨after, hs, -⟩ := exists_dropEndWhile p s
  rw [hs]
  exact List.mem_append_left after hc

namespace Framed

theorem dropWhile (h : Framed q s t) (hs : ∀ c ∈ s, ¬ p c) (hne : s ≠ []) :
    Framed q s (t.dropWhile p) := by
  obtain ⟨before, after, rfl, hbefore, hafter⟩ := h
  refine ⟨_, after, dropWhile_append hs hne before after, fun c hc => ?_, hafter⟩
  exact hbefore c ((List.dropWhile_suffix p).mem hc)

theorem dropEndWhile (h : Framed q s t) (hs : ∀ c ∈ s, ¬ p c) (hne : s ≠ []) :
    Framed q s (dropEndWhile p t) := by
  obtain ⟨before, after, rfl, hbefore, hafter⟩ := h
  refine ⟨before, _, dropEndWhile_append hs hne before after, hbefore, fun c hc => ?_⟩
  exact hafter c (mem_of_mem_dropEndWhile hc)

theorem stripWhile (h : Framed q s t) (hs : ∀ c ∈ s, ¬ p c) (hne : s ≠ []) :
    Framed q s (stripWhile p t) :=
  (h.dropWhile hs hne).dropEndWhile hs hne

end Framed

end

/-! ## Words -/

theorem pieces_ne_nil (p : Char → Bool) (s : List Char) : pieces p s ≠ [] := by
  cases s with
  | nil => simp [pieces]
  | cons c rest =>
      rw [pieces]
      split
      · simp
      · split <;> simp

theorem pieces_of_forall {p : Char → Bool} {s : List Char} (h : ∀ c ∈ s, ¬ p c) :
    pieces p s = [s] := by
  induction s with
  | nil => rfl
  | cons c s ih =>
      rw [List.forall_mem_cons] at h
      rw [pieces, if_neg h.1, ih h.2]

theorem pieces_append_cons {p : Char → Bool} {c : Char} (hc : p c) (s t : List Char) :
    pieces p (s ++ c :: t) = pieces p s ++ pieces p t := by
  induction s with
  | nil => simp [pieces, hc]
  | cons d s ih =>
      rw [List.cons_append, pieces, pieces, ih]
      split
      · rfl
      · obtain ⟨part, more, hpieces⟩ := List.exists_cons_of_ne_nil (pieces_ne_nil p s)
        rw [hpieces]
        rfl

theorem head?_pieces (p : Char → Bool) (s : List Char) :
    (pieces p s).head? = some (s.takeWhile (!p ·)) := by
  induction s with
  | nil => rfl
  | cons c rest ih =>
      rw [pieces]
      split
      · next hc => simp [hc]
      · next hc =>
          split
          · next hnil => exact absurd hnil (pieces_ne_nil p rest)
          · next part more hpieces =>
              rw [hpieces, List.head?_cons, Option.some.injEq] at ih
              simp [hc, ih]

theorem head?_words (s : List Char) :
    (words s).head?.getD [] = (s.dropWhile isBlank).takeWhile (!isBlank ·) := by
  induction s with
  | nil => rfl
  | cons c rest ih =>
      by_cases hc : isBlank c
      · rw [List.dropWhile_cons_of_pos hc, ← ih, words, pieces, if_pos hc]
        rfl
      · have hpieces := head?_pieces isBlank rest
        rw [List.dropWhile_cons_of_neg hc, words, pieces, if_neg hc]
        split
        · next hnil => exact absurd hnil (pieces_ne_nil isBlank rest)
        · next part more hmore =>
            rw [hmore, List.head?_cons, Option.some.injEq] at hpieces
            simp [hc, hpieces]

theorem mem_takeWhile_append {p : Char → Bool} {c : Char} {a : List Char}
    (hc : c ∈ a.takeWhile p) (b : List Char) : c ∈ (a ++ b).takeWhile p := by
  rw [List.takeWhile_append]
  split
  · exact List.mem_append_left _ ((List.takeWhile_prefix p).mem hc)
  · exact hc

/-! ## The first mark -/

theorem splitOnce_append {mark : Char} {a : List Char} (ha : mark ∉ a) (b : List Char) :
    splitOnce mark (a ++ mark :: b) = some (a, b) := by
  induction a with
  | nil => simp [splitOnce]
  | cons c a ih =>
      rw [List.mem_cons, not_or] at ha
      simp [splitOnce, ih ha.2, Ne.symm ha.1]

theorem splitOnce_eq_none {mark : Char} {s : List Char} (hs : mark ∉ s) :
    splitOnce mark s = none := by
  induction s with
  | nil => rfl
  | cons c s ih =>
      rw [List.mem_cons, not_or] at hs
      simp [splitOnce, ih hs.2, Ne.symm hs.1]

theorem splitOnce_eq_some_iff {mark : Char} {s a b : List Char} :
    splitOnce mark s = some (a, b) ↔ mark ∉ a ∧ s = a ++ mark :: b := by
  constructor
  · intro h
    induction s generalizing a with
    | nil => cases h
    | cons c s ih =>
        rw [splitOnce] at h
        split at h
        · next hc =>
            cases h
            exact ⟨List.not_mem_nil, by rw [beq_iff_eq.mp hc, List.nil_append]⟩
        · next hc =>
            obtain ⟨⟨before, after⟩, hsplit, h⟩ := Option.map_eq_some_iff.mp h
            cases h
            obtain ⟨hbefore, rfl⟩ := ih hsplit
            have hne : mark ≠ c := fun h => hc (beq_iff_eq.mpr h.symm)
            exact ⟨List.not_mem_cons_of_ne_of_not_mem hne hbefore, rfl⟩
  · rintro ⟨ha, rfl⟩
    exact splitOnce_append ha b

/-! ## The last mark -/

theorem splitLast_eq_none {mark : Char} {s : List Char} (hs : mark ∉ s) :
    splitLast mark s = none := by
  induction s with
  | nil => rfl
  | cons c s ih =>
      rw [List.mem_cons, not_or] at hs
      simp [splitLast, ih hs.2, Ne.symm hs.1]

theorem splitLast_append {mark : Char} {b : List Char} (hb : mark ∉ b) (a : List Char) :
    splitLast mark (a ++ mark :: b) = some (a, b) := by
  induction a with
  | nil => simp [splitLast, splitLast_eq_none hb]
  | cons c a ih => simp [splitLast, ih]

theorem not_mem_of_splitLast {mark : Char} {s : List Char} (h : splitLast mark s = none) :
    mark ∉ s := by
  induction s with
  | nil => exact List.not_mem_nil
  | cons c s ih =>
      rw [splitLast] at h
      split at h
      · cases h
      · next hnone =>
          split at h
          · cases h
          · next hc =>
              have hne : mark ≠ c := fun h => hc (beq_iff_eq.mpr h.symm)
              exact List.not_mem_cons_of_ne_of_not_mem hne (ih hnone)

theorem splitLast_eq_some_iff {mark : Char} {s a b : List Char} :
    splitLast mark s = some (a, b) ↔ mark ∉ b ∧ s = a ++ mark :: b := by
  constructor
  · intro h
    induction s generalizing a with
    | nil => cases h
    | cons c s ih =>
        rw [splitLast] at h
        split at h
        · next before after hsplit =>
            cases h
            obtain ⟨hafter, rfl⟩ := ih hsplit
            exact ⟨hafter, rfl⟩
        · next hnone =>
            split at h
            · next hc =>
                cases h
                exact ⟨not_mem_of_splitLast hnone, by rw [beq_iff_eq.mp hc, List.nil_append]⟩
            · cases h
  · rintro ⟨hb, rfl⟩
    exact splitLast_append hb a

end LinkTelemetry.Text
