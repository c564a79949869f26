import LinkTelemetry.Proofs.CompanionLines
import LinkTelemetry.Proofs.ProcessorTimes

/-!
# Tables of interfaces

The kernel prints a line for each interface: its name, a colon, and counters
in columns, of which the first is the bytes received and the ninth the bytes
sent. The traffic of a host is the sum over the interfaces that were selected,
so the order of the lines does not matter and neither does a selection that
names an interface twice.

A line is looked at only as far as its name until it is known to be selected.
`Table` lets any other line stand anywhere in the table, legible or not, and
the sum does not see it (`traffic_sums_selection`).
-/

namespace LinkTelemetry.Source.Procfs

open Text (Framed isBlank ReadOf Columns Lined)

/-- An interface and its counters, of which there are nine at least. -/
structure Interface where
  name : String
  counters : List UInt64
  name_ne : name ≠ ""
  name_free : ∀ c ∈ name.toList, c ≠ ':' ∧ ¬ isBlank c
  nine_le_length : 9 ≤ counters.length

namespace Interface

def received (i : Interface) : UInt64 :=
  have := i.nine_le_length
  i.counters[0]

def sent (i : Interface) : UInt64 :=
  have := i.nine_le_length
  i.counters[8]

/-- A line of an interface, whatever blanks align its columns. -/
def Row (i : Interface) (line : List Char) : Prop :=
  ∃ label columns, line = label ++ ':' :: columns ∧ Framed isBlank i.name.toList label ∧
    Columns (i.counters.map fun n => Numeral.write n.toNat) columns

def render (i : Interface) : List Char :=
  ' ' :: ' ' :: (i.name.toList ++ ':' :: i.counters.flatMap fun n => ' ' :: Numeral.write n.toNat)

theorem columns_counters (counters : List UInt64) :
    Columns (counters.map fun n => Numeral.write n.toNat)
      (counters.flatMap fun n => ' ' :: Numeral.write n.toNat) := by
  induction counters with
  | nil => exact .nil (by simp)
  | cons n counters ih =>
      have hgap : ∀ c ∈ [' '], isBlank c := by simp [isBlank]
      refine Columns.cons hgap (write_ne_nil _) not_isBlank_of_mem_write ?_ ih
      cases counters <;> simp [isBlank]

theorem row_render (i : Interface) : i.Row i.render := by
  refine ⟨' ' :: ' ' :: i.name.toList, _, rfl, ?_, columns_counters i.counters⟩
  exact ⟨[' ', ' '], [], by simp, by simp [isBlank], by simp⟩

end Interface

/-! ## One line -/

/-- Whether an interface counts: those that are named, or all but the loopback
interface where none is. -/
def Selects (selection : List String) (name : String) : Prop :=
  name ∈ selection ∨ selection = [] ∧ name ≠ "lo"

instance (selection : List String) (name : String) : Decidable (Selects selection name) :=
  inferInstanceAs (Decidable (_ ∨ _))

theorem isSelected_iff {selection : List String} {name : String} :
    isSelected selection name = true ↔ Selects selection name := by
  rw [isSelected, Selects]
  cases selection <;> simp

/-- A line that is none of a selected interface. -/
def Ignored (selection : List String) (line : List Char) : Prop :=
  ∀ label rest, ':' ∉ label → line = label ++ ':' :: rest →
    ¬ Selects selection (.ofList (Text.trim label))

/-- What a line is cut into if it is one of the interface. -/
def Entry (i : Interface) (entry : String × List Char) : Prop :=
  entry.1 = i.name ∧ Text.words entry.2 = i.counters.map fun n => Numeral.write n.toNat

section

variable {i : Interface} {selection : List String} {line read : List Char}

theorem Interface.Row.exists_entry (h : i.Row line) (hread : ReadOf read line) :
    ∃ entry, interfaceLine? read = some entry ∧ Entry i entry := by
  obtain ⟨label, columns, hline, hlabel, hcolumns⟩ := h
  have hname : ∀ c ∈ i.name.toList, ¬ isBlank c := fun c hc => (i.name_free c hc).2
  have hcolon : ':' ∉ label := by
    have hne : ∀ c ∈ label, c ≠ ':' := hlabel.forall_mem (by rintro c hc rfl; cases hc)
      fun c hc => (i.name_free c hc).1
    exact fun hmem => hne ':' hmem rfl
  obtain ⟨after, rfl, tail, rfl, htail⟩ := ReadOf.exists_append (by decide) (hline ▸ hread)
  refine ⟨(.ofList (Text.trim label), after), ?_, ?_, ?_⟩
  · rw [interfaceLine?, Text.splitOnce_append hcolon]
    rfl
  · show String.ofList (Text.trim label) = i.name
    rw [Text.trim, hlabel.stripWhile_eq hname, String.ofList_toList]
  · show Text.words after = _
    rw [← Text.words_append_blanks htail, hcolumns.words_eq]

theorem Ignored.not_selects (h : Ignored selection line) (hread : ReadOf read line) :
    ∀ entry ∈ interfaceLine? read, ¬ Selects selection entry.1 := by
  obtain ⟨tail, rfl, htail⟩ := hread
  intro entry hentry
  obtain ⟨⟨label, rest⟩, hsplit, rfl⟩ := Option.map_eq_some_iff.mp hentry
  obtain ⟨hlabel, rfl⟩ := Text.splitOnce_eq_some_iff.mp hsplit
  exact h label (rest ++ tail) hlabel (by simp)

theorem traffic_of_entry {entry : String × List Char} (h : Entry i entry) :
    traffic entry.1 entry.2 = .ok ⟨i.received, i.sent⟩ := by
  have hlength := i.nine_le_length
  have hword : ∀ n : UInt64, Numeral.readUInt64? (Numeral.write n.toNat) = some n := by
    intro n
    exact Numeral.readUInt64?_eq_some_iff.mpr (Numeral.denotes_write n.toNat)
  have hfield : ∀ k (hk : k < i.counters.length),
      (Text.words entry.2)[k]? = some (Numeral.write i.counters[k].toNat) := by
    intro k hk
    rw [h.2, List.getElem?_map, List.getElem?_eq_getElem hk]
    rfl
  simp only [traffic, hfield 0 (by omega), hfield 8 (by omega), hword]
  rfl

end

/-! ## The whole table -/

/-- Lines of interfaces and lines that are ignored, in any order. -/
inductive Table (selection : List String) : List (List Char) → List Interface → Prop where
  | nil : Table selection [] []
  | row {i : Interface} {line : List Char} {lines : List (List Char)}
      {interfaces : List Interface} (hrow : i.Row line) (h : Table selection lines interfaces) :
      Table selection (line :: lines) (i :: interfaces)
  | stray {line : List Char} {lines : List (List Char)} {interfaces : List Interface}
      (hline : Ignored selection line) (h : Table selection lines interfaces) :
      Table selection (line :: lines) interfaces

section

variable {selection : List String} {lines : List (List Char)} {interfaces : List Interface}

theorem Table.entries (h : Table selection lines interfaces) {reads : List (List Char)}
    (hreads : List.Forall₂ ReadOf reads lines) :
    List.Forall₂ Entry (interfaces.filter (Selects selection ·.name))
      ((reads.filterMap interfaceLine?).filter fun entry => isSelected selection entry.1) := by
  induction h generalizing reads with
  | nil =>
      cases hreads
      exact .nil
  | @row i line lines interfaces hrow h ih =>
      obtain - | ⟨hread, hreads⟩ := hreads
      obtain ⟨⟨name, columns⟩, hentry, hname, hwords⟩ := hrow.exists_entry hread
      obtain rfl : name = i.name := hname
      rw [List.filterMap_cons_some hentry]
      by_cases hselects : Selects selection i.name
      · rw [List.filter_cons_of_pos (by simpa using hselects),
          List.filter_cons_of_pos (by simpa [isSelected_iff] using hselects)]
        exact .cons ⟨rfl, hwords⟩ (ih hreads)
      · rw [List.filter_cons_of_neg (by simpa using hselects),
          List.filter_cons_of_neg (by simpa [isSelected_iff] using hselects)]
        exact ih hreads
  | @stray line lines interfaces hline h ih =>
      obtain - | @⟨read, _, reads, _, hread, hreads⟩ := hreads
      cases hentry : interfaceLine? read with
      | none =>
          rw [List.filterMap_cons_none hentry]
          exact ih hreads
      | some entry =>
          have hselects := hline.not_selects hread entry hentry
          rw [List.filterMap_cons_some hentry,
            List.filter_cons_of_neg (by simpa [isSelected_iff] using hselects)]
          exact ih hreads

/-- The traffic of the selected ones among some interfaces. -/
def selectedSum (selection : List String) (interfaces : List Interface) :
    Except SourceError Traffic :=
  let chosen := interfaces.filter (Selects selection ·.name)
  if selection ≠ [] ∧ chosen = [] then .error (.unreachable (.noSuchInterface selection))
  else .ok ⟨.ofNat ((chosen.map (·.received.toNat)).sum % 2 ^ 64),
    .ofNat ((chosen.map (·.sent.toNat)).sum % 2 ^ 64)⟩

theorem selectedSum_perm {interfaces' : List Interface} (h : interfaces'.Perm interfaces) :
    selectedSum selection interfaces' = selectedSum selection interfaces := by
  have hchosen := h.filter fun i => decide (Selects selection i.name)
  have hnil : interfaces'.filter (Selects selection ·.name) = [] ↔
      interfaces.filter (Selects selection ·.name) = [] := by
    rw [← List.length_eq_zero_iff, ← List.length_eq_zero_iff, hchosen.length_eq]
  simp only [selectedSum, hnil, (hchosen.map (·.received.toNat)).sum_eq,
    (hchosen.map (·.sent.toNat)).sum_eq]

theorem total_eq (counters : List UInt64) :
    total counters = .ofNat ((counters.map UInt64.toNat).sum % 2 ^ 64) := by
  rw [← toNat_total, UInt64.ofNat_toNat]

theorem parseTraffic_of_table {header header' text : List Char}
    (htext : Lined (header :: header' :: lines) text) (htable : Table selection lines interfaces) :
    parseTraffic selection text = selectedSum selection interfaces := by
  have hreads := htext.readOf
  generalize hlines : Text.lines text = reads at hreads
  obtain - | ⟨-, - | ⟨-, hreads⟩⟩ := hreads
  have hselected : selectedTraffic selection text =
      .ok ((interfaces.filter (Selects selection ·.name)).map fun i => ⟨i.received, i.sent⟩) := by
    rw [selectedTraffic, hlines]
    exact mapM_eq_ok (htable.entries hreads) fun i _ entry hentry => traffic_of_entry hentry
  rw [parseTraffic, hselected, ok_bind, selectedSum]
  generalize interfaces.filter (Selects selection ·.name) = chosen
  simp only [total_eq, List.map_map]
  cases selection <;> cases chosen <;> simp [Function.comp_def]

/-- The traffic of a host is the sum over the selected interfaces of its table,
whatever their order and whatever the lines of the others are. -/
theorem traffic_sums_selection {header header' text : List Char}
    (htext : Lined (header :: header' :: lines) text) (htable : Table selection lines interfaces) :
    parseTraffic selection text = selectedSum selection interfaces ∧
    (selection = [] → (∀ i ∈ interfaces, i.name = "lo") →
      parseTraffic selection text = .ok ⟨0, 0⟩) ∧
    ∀ {other other' text' : List Char} {lines' : List (List Char)} {interfaces' : List Interface},
      Lined (other :: other' :: lines') text' → Table selection lines' interfaces' →
      interfaces'.Perm interfaces → parseTraffic selection text' = parseTraffic selection text := by
  have hsum := parseTraffic_of_table htext htable
  refine ⟨hsum, ?_, ?_⟩
  · rintro rfl hloopback
    have hchosen : interfaces.filter (Selects [] ·.name) = [] := by
      rw [List.filter_eq_nil_iff]
      intro i hi
      simp [Selects, hloopback i hi]
    simp [hsum, selectedSum, hchosen]
  · intro other other' text' lines' interfaces' htext' htable' hperm
    rw [hsum, parseTraffic_of_table htext' htable', selectedSum_perm hperm]

end

def tunnel (received sent : UInt64) : Interface where
  name := "tun0"
  counters := [received, 0, 0, 0, 0, 0, 0, 0, sent]
  name_ne := by decide
  name_free := by simp [isBlank]
  nine_le_length := by simp

/-- An interface that is selected twice, with two lines whose bytes received
pass the word, and a line of the loopback interface that is cut short. -/
theorem traffic_sums_selection_past_short_line :
    parseTraffic ["tun0", "tun0"] ("h\nh\n  lo: 7 7\n".toList ++
      ((tunnel 18446744073709551615 5).render ++ '\n' :: (tunnel 3 6).render)) =
        .ok ⟨2, 11⟩ := by
  have hstray : Ignored ["tun0", "tun0"] "  lo: 7 7".toList := by
    intro label rest hlabel hline
    have hsplit := Text.splitOnce_append hlabel rest
    rw [← hline] at hsplit
    obtain ⟨rfl, -⟩ := Prod.mk.inj (Option.some.inj hsplit)
    decide +kernel
  have htable := Table.stray hstray
    (.row (tunnel 18446744073709551615 5).row_render (.row (tunnel 3 6).row_render .nil))
  have hlined : Lined (['h'] :: ['h'] :: ["  lo: 7 7".toList,
      (tunnel 18446744073709551615 5).render, (tunnel 3 6).render]) _ :=
    .cons (by decide) (.cons (by decide) (.cons (by decide +kernel)
      (.cons (by decide +kernel) (.last (by decide +kernel) (by decide +kernel)))))
  have hsum : selectedSum ["tun0", "tun0"]
      [tunnel 18446744073709551615 5, tunnel 3 6] = .ok ⟨2, 11⟩ := by
    simp [selectedSum, Selects, tunnel, Interface.received, Interface.sent]
  exact (traffic_sums_selection hlined htable).1.trans hsum

end LinkTelemetry.Source.Procfs
