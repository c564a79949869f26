import LinkTelemetry.Decimal.Reader
import LinkTelemetry.Proofs.FloatSign

/-!
# What numerals are made of

Two readers turn text into numbers, one for whole numbers and one for
fractions. Two facts relate them. Whatever either accepts consists of few
characters only, so a text with any other character in it is no number
(`isNumeralChar_of_read?`). And on whole numbers the readers agree: where the
first accepts a word of 64 bits, the second reads the same digits and finds a
float that is finite and not negative (`read?_of_readUInt64?`).

The writers write nothing but digits, and what they write is read back
(`read?_write`).
-/

namespace LinkTelemetry

/-- Only upper case letters have another lower case. -/
theorem toLower_eq_self {c : Char} (h : c.toNat < 65 ∨ 90 < c.toNat) : c.toLower = c := by
  rw [Char.toLower, dif_neg]
  rintro ⟨hle, hge⟩
  have hle : 65 ≤ c.toNat := UInt32.le_iff_toNat_le.mp hle
  have hge : c.toNat ≤ 90 := UInt32.le_iff_toNat_le.mp hge
  omega

theorem Decimal.isDigit_iff {c : Char} : isDigit c ↔ 48 ≤ c.toNat ∧ c.toNat ≤ 57 := by
  rw [isDigit, Bool.and_eq_true, decide_eq_true_eq, decide_eq_true_eq]
  exact Iff.rfl

namespace Numeral

theorem isDigit_of_digit? {c : Char} {d : Nat} (h : digit? 10 c = some d) : Decimal.isDigit c := by
  have hle : ∀ x y : Char, x ≤ y ↔ x.toNat ≤ y.toNat := fun _ _ => Iff.rfl
  obtain ⟨hvalue, hd⟩ := Option.filter_eq_some_iff.mp h
  rw [decide_eq_true_eq] at hd
  simp only [hle, Char.reduceToNat] at hvalue
  split at hvalue
  · next hdigit => exact Decimal.isDigit_iff.mpr hdigit
  · split at hvalue
    · have := Option.some.inj hvalue
      omega
    · split at hvalue
      · have := Option.some.inj hvalue
        omega
      · cases hvalue

theorem isDigit_of_digitsFrom {s : List Char} {seen n : Nat} (h : digitsFrom 10 seen s = some n) :
    ∀ c ∈ s, Decimal.isDigit c := by
  induction s generalizing seen with
  | nil => intro c hc; cases hc
  | cons d rest ih =>
      rw [digitsFrom] at h
      split at h
      · next v hd =>
          intro c hc
          rcases List.mem_cons.mp hc with rfl | hc
          · exact isDigit_of_digit? hd
          · exact ih h c hc
      · cases h

theorem isDigit_of_ofDigits? {s : List Char} {n : Nat} (h : ofDigits? 10 s = some n) :
    s ≠ [] ∧ ∀ c ∈ s, Decimal.isDigit c := by
  cases s with
  | nil => cases h
  | cons c rest => exact ⟨List.cons_ne_nil c rest, isDigit_of_digitsFrom h⟩

/-! What is read is what the digits denote. -/

/-- Digits that denote a number, after one plus sign at most. -/
def Denotes (s : List Char) (n : Nat) : Prop :=
  ∃ digits, (s = digits ∨ s = '+' :: digits) ∧ digits ≠ [] ∧
    (∀ c ∈ digits, Decimal.isDigit c) ∧ Nat.ofDigitChars 10 digits 0 = n

theorem digit?_of_isDigit {c : Char} (h : Decimal.isDigit c) :
    digit? 10 c = some (c.toNat - 48) := by
  have hbounds := Decimal.isDigit_iff.mp h
  have hdigit : '0' ≤ c ∧ c ≤ '9' := hbounds
  have hten : c.toNat - 48 < 10 := by omega
  rw [digit?, if_pos hdigit, Option.filter_some, if_pos (decide_eq_true hten)]

theorem digitsFrom_eq_some_iff {s : List Char} {seen n : Nat} :
    digitsFrom 10 seen s = some n ↔
      (∀ c ∈ s, Decimal.isDigit c) ∧ Nat.ofDigitChars 10 s seen = n := by
  constructor
  · intro h
    refine ⟨isDigit_of_digitsFrom h, ?_⟩
    induction s generalizing seen with
    | nil => exact Option.some.inj h
    | cons c rest ih =>
        have hc := digit?_of_isDigit (isDigit_of_digitsFrom h c List.mem_cons_self)
        rw [digitsFrom, hc] at h
        rw [Nat.ofDigitChars_cons, Nat.mul_comm]
        exact ih h
  · rintro ⟨hdigits, rfl⟩
    induction s generalizing seen with
    | nil => rfl
    | cons c rest ih =>
        rw [List.forall_mem_cons] at hdigits
        rw [digitsFrom, digit?_of_isDigit hdigits.1, Nat.ofDigitChars_cons, Nat.mul_comm]
        exact ih hdigits.2

theorem ofDigits?_eq_some_iff {s : List Char} {n : Nat} :
    ofDigits? 10 s = some n ↔
      s ≠ [] ∧ (∀ c ∈ s, Decimal.isDigit c) ∧ Nat.ofDigitChars 10 s 0 = n := by
  cases s with
  | nil => simp [ofDigits?]
  | cons c rest =>
      rw [ofDigits?, digitsFrom_eq_some_iff]
      · simp
      · simp

theorem read?_eq_some_iff {s : List Char} {n : Nat} : read? 10 s = some n ↔ Denotes s n := by
  constructor
  · intro h
    rw [read?.eq_def] at h
    split at h
    · next rest => exact ⟨rest, .inr rfl, ofDigits?_eq_some_iff.mp h⟩
    · exact ⟨s, .inl rfl, ofDigits?_eq_some_iff.mp h⟩
  · rintro ⟨digits, rfl | rfl, hdigits⟩
    · rw [read?.eq_def]
      split
      · next rest => exact absurd (hdigits.2.1 '+' List.mem_cons_self) (by decide)
      · exact ofDigits?_eq_some_iff.mpr hdigits
    · exact ofDigits?_eq_some_iff.mpr hdigits

/-- A numeral for a larger number than a word holds is none for the word. -/
theorem readWord_eq_some_iff {W : Type} {ofNat : Nat → W} {toNat : W → Nat} {size : Nat}
    (hlt : ∀ w, toNat w < size) (hof : ∀ w, ofNat (toNat w) = w)
    (hto : ∀ n < size, toNat (ofNat n) = n) {s : List Char} {w : W} :
    (read? 10 s).bind (fun n => if n < size then some (ofNat n) else none) = some w ↔
      Denotes s (toNat w) := by
  rw [← read?_eq_some_iff]
  constructor
  · intro h
    obtain ⟨m, hm, h⟩ := Option.bind_eq_some_iff.mp h
    split at h
    · next hm' => rw [hm, ← Option.some.inj h, hto m hm']
    · cases h
  · intro h
    rw [h, Option.bind_some, if_pos (hlt w), hof]

theorem readUInt64?_eq_some_iff {s : List Char} {n : UInt64} :
    readUInt64? s = some n ↔ Denotes s n.toNat :=
  readWord_eq_some_iff UInt64.toNat_lt (fun _ => UInt64.ofNat_toNat)
    fun _ => UInt64.toNat_ofNat_of_lt'

theorem readUInt16?_eq_some_iff {s : List Char} {n : UInt16} :
    readUInt16? s = some n ↔ Denotes s n.toNat :=
  readWord_eq_some_iff UInt16.toNat_lt (fun _ => UInt16.ofNat_toNat)
    fun _ => UInt16.toNat_ofNat_of_lt'

/-! What is written is read. -/

theorem isDigit_of_mem_write {n : Nat} {c : Char} (h : c ∈ write n) : Decimal.isDigit c := by
  have hdigit : c.isDigit := Nat.isDigit_of_mem_toDigits (by decide) (by decide) h
  rw [Char.isDigit, Bool.and_eq_true, decide_eq_true_eq, decide_eq_true_eq] at hdigit
  exact Decimal.isDigit_iff.mpr hdigit

theorem denotes_write (n : Nat) : Denotes (write n) n :=
  ⟨write n, .inl rfl, Nat.toDigits_ne_nil, fun _ => isDigit_of_mem_write,
    Nat.ofDigitChars_toDigits (by decide) (by decide)⟩

theorem read?_write (n : Nat) : read? 10 (write n) = some n :=
  read?_eq_some_iff.mpr (denotes_write n)

theorem readUInt64?_write (n : Nat) :
    readUInt64? (write n) = if n < UInt64.size then some (.ofNat n) else none := by
  rw [readUInt64?, read?_write, Option.bind_some]

end Numeral

namespace Decimal

/-- A digit, a sign, the point, or a letter of `e`, `inf`, `infinity` and `nan`
in either case. -/
def isNumeralChar (c : Char) : Bool :=
  isDigit c || ['+', '-', '.', 'e', 'i', 'n', 'f', 't', 'y', 'a'].contains c.toLower

theorem isNumeralChar_of_isDigit {c : Char} (h : isDigit c) : isNumeralChar c := by
  rw [isNumeralChar, h, Bool.true_or]

theorem isNumeralChar_of_ofDigits? {s : List Char} {n : Nat}
    (h : Numeral.ofDigits? 10 s = some n) : ∀ c ∈ s, isNumeralChar c :=
  fun c hc => isNumeralChar_of_isDigit ((Numeral.isDigit_of_ofDigits? h).2 c hc)

/-! ## The characters of a numeral -/

theorem forall_mem_cons_of {s : List Char} {d : Char} (hd : isNumeralChar d)
    (hs : ∀ c ∈ s, isNumeralChar c) : ∀ c ∈ d :: s, isNumeralChar c :=
  List.forall_mem_cons.mpr ⟨hd, hs⟩

theorem isNumeralChar_of_exponent? {s : List Char} {e : Int} (h : exponent? s = some e) :
    ∀ c ∈ s, isNumeralChar c := by
  rw [exponent?.eq_def] at h
  split at h
  · obtain ⟨_, hn, -⟩ := Option.map_eq_some_iff.mp h
    obtain ⟨n, hn, -⟩ := Option.bind_eq_some_iff.mp hn
    exact forall_mem_cons_of rfl (isNumeralChar_of_ofDigits? hn)
  · obtain ⟨n, hn, -⟩ := Option.map_eq_some_iff.mp h
    exact forall_mem_cons_of rfl (isNumeralChar_of_ofDigits? hn)
  · obtain ⟨n, hn, -⟩ := Option.map_eq_some_iff.mp h
    exact isNumeralChar_of_ofDigits? hn

theorem isNumeralChar_of_afterDigits? {s : List Char} {e : Int} (h : afterDigits? s = some e) :
    ∀ c ∈ s, isNumeralChar c := by
  rw [afterDigits?.eq_def] at h
  split at h
  · intro c hc; cases hc
  · exact forall_mem_cons_of rfl (isNumeralChar_of_exponent? h)
  · exact forall_mem_cons_of rfl (isNumeralChar_of_exponent? h)
  · cases h

theorem isNumeralChar_of_unsigned? {s : List Char} {p : Parsed} (h : unsigned? s = some p) :
    ∀ c ∈ s, isNumeralChar c := by
  have htake : ∀ t : List Char, ∀ c ∈ t.takeWhile isDigit, isNumeralChar c :=
    fun t c hc => isNumeralChar_of_isDigit (List.mem_takeWhile_imp hc)
  rw [unsigned?] at h
  obtain ⟨digits, -, h⟩ := Option.bind_eq_some_iff.mp h
  obtain ⟨e, he, -⟩ := Option.map_eq_some_iff.mp h
  have hrest := isNumeralChar_of_afterDigits? he
  have hafter : ∀ c ∈ s.dropWhile isDigit, isNumeralChar c := by
    split at hrest
    · next more hmore =>
        rw [hmore]
        refine forall_mem_cons_of rfl fun c hc => ?_
        rw [← List.takeWhile_append_dropWhile (p := isDigit) (l := more)] at hc
        rcases List.mem_append.mp hc with hc | hc
        · exact htake more c hc
        · exact hrest c hc
    · exact hrest
  intro c hc
  rw [← List.takeWhile_append_dropWhile (p := isDigit) (l := s)] at hc
  rcases List.mem_append.mp hc with hc | hc
  · exact htake s c hc
  · exact hafter c hc

theorem isNumeralChar_of_special? {s : List Char} {x : Float} (h : special? s = some x) :
    ∀ c ∈ s, isNumeralChar c := by
  have hword : ∀ word : List Char, String.ofList (s.map Char.toLower) = String.ofList word →
      (∀ c ∈ word, ['e', 'i', 'n', 'f', 't', 'y', 'a'].contains c) → ∀ c ∈ s, isNumeralChar c := by
    intro word hs hletters c hc
    rw [String.ofList_inj] at hs
    have hlower : c.toLower ∈ word := hs ▸ List.mem_map_of_mem hc
    have := hletters _ hlower
    rw [isNumeralChar]
    simp_all
  rw [special?] at h
  split at h
  · next hs => exact hword ['i', 'n', 'f'] hs (by simp)
  · next hs => exact hword ['i', 'n', 'f', 'i', 'n', 'i', 't', 'y'] hs (by simp)
  · next hs => exact hword ['n', 'a', 'n'] hs (by simp)
  · cases h

theorem isNumeralChar_of_magnitude? {s : List Char} {x : Float} (h : magnitude? s = some x) :
    ∀ c ∈ s, isNumeralChar c := by
  rw [magnitude?] at h
  split at h
  · next hs => exact isNumeralChar_of_special? hs
  · obtain ⟨p, hp, -⟩ := Option.map_eq_some_iff.mp h
    exact isNumeralChar_of_unsigned? hp

theorem isNumeralChar_of_read? {s : List Char} {x : Float} (h : read? s = some x) :
    ∀ c ∈ s, isNumeralChar c := by
  rw [read?.eq_def] at h
  split at h
  · obtain ⟨y, hy, -⟩ := Option.map_eq_some_iff.mp h
    exact forall_mem_cons_of rfl (isNumeralChar_of_magnitude? hy)
  · exact forall_mem_cons_of rfl (isNumeralChar_of_magnitude? h)
  · exact isNumeralChar_of_magnitude? h

/-! ## Whole numbers -/

theorem toLower_of_isDigit {c : Char} (h : isDigit c) : c.toLower = c := by
  have := isDigit_iff.mp h
  exact toLower_eq_self (by omega)

theorem unsigned?_whole {s : List Char} {n : Nat} (h : Numeral.ofDigits? 10 s = some n) :
    unsigned? s = some ⟨n, 0⟩ := by
  have hdigits := (Numeral.isDigit_of_ofDigits? h).2
  have htake : s.takeWhile isDigit = s := List.takeWhile_eq_self_iff.mpr hdigits
  have hdrop : s.dropWhile isDigit = [] := List.dropWhile_eq_nil_iff.mpr hdigits
  simp [unsigned?, htake, hdrop, h, afterDigits?]

theorem special?_whole {s : List Char} {n : Nat} (h : Numeral.ofDigits? 10 s = some n) :
    special? s = none := by
  obtain ⟨hne, hdigits⟩ := Numeral.isDigit_of_ofDigits? h
  obtain ⟨c, rest, rfl⟩ := List.exists_cons_of_ne_nil hne
  have hc := hdigits c List.mem_cons_self
  have hword : ∀ d word, ¬ isDigit d → String.ofList ((c :: rest).map Char.toLower) ≠
      String.ofList (d :: word) := by
    intro d word hd heq
    rw [String.ofList_inj, List.map_cons, List.cons.injEq, toLower_of_isDigit hc] at heq
    exact hd (heq.1 ▸ hc)
  rw [special?]
  split
  · next hs => exact absurd hs (hword 'i' ['n', 'f'] (by decide))
  · next hs => exact absurd hs (hword 'i' ['n', 'f', 'i', 'n', 'i', 't', 'y'] (by decide))
  · next hs => exact absurd hs (hword 'n' ['a', 'n'] (by decide))
  · rfl

theorem magnitude?_whole {s : List Char} {n : Nat} (h : Numeral.ofDigits? 10 s = some n) :
    magnitude? s = some (Parsed.toFloat ⟨n, 0⟩) := by
  rw [magnitude?, special?_whole h, unsigned?_whole h]
  rfl

theorem read?_whole {s : List Char} {n : Nat} (h : Numeral.read? 10 s = some n) :
    read? s = some (Parsed.toFloat ⟨n, 0⟩) := by
  rw [Numeral.read?.eq_def] at h
  split at h
  · next rest => exact magnitude?_whole h
  · next hplus =>
      rw [read?.eq_def]
      split
      · next rest =>
          have hminus := (Numeral.isDigit_of_ofDigits? h).2 '-' List.mem_cons_self
          exact absurd hminus (by decide)
      · next rest => exact absurd rfl (hplus rest)
      · exact magnitude?_whole h

theorem toFloat_whole {n : Nat} (hn : n < 2 ^ 64) :
    (Parsed.toFloat ⟨n, 0⟩).isFinite ∧ 0 ≤ Parsed.toFloat ⟨n, 0⟩ := by
  have hlength : (Nat.toDigits 10 n).length ≤ 20 :=
    (Nat.length_toDigits_le_iff (by decide) (by decide)).mpr (by omega)
  have hpos : 0 < (Nat.toDigits 10 n).length := Nat.length_toDigits_pos
  have hmagnitude : Parsed.magnitude ⟨n, 0⟩ = (Nat.toDigits 10 n).length := Int.add_zero _
  rw [Parsed.toFloat]
  split
  · exact ⟨by decide, by decide⟩
  · rw [if_neg (by omega), if_neg (by omega)]
    exact Binary64.ofScientific_whole hn

/-- A whole number of 64 bits is a number for the reader of fractions too, and
neither too large nor negative there. -/
theorem read?_of_readUInt64? {s : List Char} {n : UInt64} (h : Numeral.readUInt64? s = some n) :
    ∃ x, read? s = some x ∧ x.isFinite ∧ 0 ≤ x := by
  obtain ⟨m, hm, h⟩ := Option.bind_eq_some_iff.mp h
  split at h
  · next hlt => exact ⟨_, read?_whole hm, toFloat_whole hlt⟩
  · cases h

end Decimal

end LinkTelemetry
