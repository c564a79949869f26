import LinkTelemetry.Text.Width

/-!
# Text in cells

Fitting a text to a number of cells. What does not fit is cut off, and what
is left over is filled, so the result takes exactly the cells it was given.
-/

namespace LinkTelemetry.Text

/-- A text cut or filled to `n` cells. The second cell of a wide character
holds a blank, and a wide character that would need one cell more than there
are ends the text. -/
def fit (filler : Char) : Nat → List Char → List Char
  | n, [] => List.replicate n filler
  | n, c :: rest =>
    if width c ≤ n then c :: (List.replicate (width c - 1) ' ' ++ fit filler (n - width c) rest)
    else List.replicate n filler

/-- The characters that start a cell of their own are as many as the cells. -/
theorem countP_fit (filler : Char) (hf : width filler ≠ 0) (n : Nat) (s : List Char) :
    (fit filler n s).countP (width · ≠ 0) = n := by
  have blank : width ' ' = 1 := width_of_lt (by decide)
  induction s generalizing n with
  | nil => simp [fit, List.countP_replicate, hf]
  | cons c rest ih =>
    unfold fit
    split
    · rename_i h
      rw [List.countP_cons, List.countP_append, ih, List.countP_replicate]
      by_cases hc : width c = 0
      · simp [hc]
      · simp [hc, blank]; omega
    · simp [List.countP_replicate, hf]

/-- The end of a text, as far as it fits into `n` cells. -/
def fitEnd (n : Nat) (s : List Char) : List Char := s.drop (s.length - n)

end LinkTelemetry.Text
