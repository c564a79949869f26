import LinkTelemetry.Proofs.CompanionLines
import LinkTelemetry.Source.Local
import Mathlib.Algebra.BigOperators.Group.Finset.Basic
import Mathlib.Algebra.BigOperators.Group.Finset.Piecewise
import Mathlib.Data.FinEnum
import Mathlib.Tactic.Ring

/-!
# Tables of sockets

The kernel prints a line for each socket. Its second column is the local
address and port, its third the remote ones and its fourth the state, with
ports and states in hexadecimal digits of a fixed number. Only sockets whose
state is that of an established connection count, and where a port is asked
for, only those that have it on the local side.

The host has one table for each of its two address families. They differ in
the length of the addresses, which nothing looks at: a port stands behind the
last colon of its column. So `Socket.Row` leaves the addresses open, and one
count serves both tables (`countEstablished_of_table`).
-/

namespace LinkTelemetry

/-! ## Hexadecimal digits -/

namespace Numeral

/-- The last `width` hexadecimal digits of a number, in upper case. -/
def writeHex : (width n : Nat) → List Char
  | 0, _ => []
  | width + 1, n => writeHex width (n / 16) ++ [(n % 16).digitChar.toUpper]

theorem length_writeHex (width n : Nat) : (writeHex width n).length = width := by
  induction width generalizing n with
  | zero => rfl
  | succ width ih => simp [writeHex, ih]

theorem exists_of_mem_writeHex {width n : Nat} {c : Char} (h : c ∈ writeHex width n) :
    ∃ d < 16, c = d.digitChar.toUpper := by
  induction width generalizing n with
  | zero => simp [writeHex] at h
  | succ width ih =>
      rw [writeHex, List.mem_append, List.mem_singleton] at h
      rcases h with h | h
      · exact ih h
      · exact ⟨n % 16, Nat.mod_lt n (by decide), h⟩

theorem forall_mem_writeHex {P : Char → Prop} (hdigit : ∀ d < 16, P d.digitChar.toUpper)
    (width n : Nat) : ∀ c ∈ writeHex width n, P c := by
  intro c hc
  obtain ⟨d, hd, rfl⟩ := exists_of_mem_writeHex hc
  exact hdigit d hd

theorem digit?_toUpper : ∀ d < 16, digit? 16 d.digitChar.toUpper = some d := by
  decide

theorem digitsFrom_append (base seen : Nat) (s t : List Char) :
    digitsFrom base seen (s ++ t) = (digitsFrom base seen s).bind (digitsFrom base · t) := by
  induction s generalizing seen with
  | nil => rfl
  | cons c s ih =>
      rw [List.cons_append, digitsFrom, digitsFrom]
      cases digit? base c with
      | none => rfl
      | some d => exact ih _

theorem digitsFrom_writeHex (width seen n : Nat) :
    digitsFrom 16 seen (writeHex width n) = some (seen * 16 ^ width + n % 16 ^ width) := by
  induction width generalizing n with
  | zero => simp [writeHex, digitsFrom, Nat.mod_one]
  | succ width ih =>
      have hlast := digit?_toUpper (n % 16) (Nat.mod_lt n (by decide))
      rw [writeHex, digitsFrom_append, ih, Option.bind_some, digitsFrom, hlast, Nat.pow_succ',
        Nat.mod_mul]
      simp only [digitsFrom, Option.some.injEq]
      ring

theorem read?_writeHex {width : Nat} (hwidth : 0 < width) (n : Nat) :
    read? 16 (writeHex width n) = some (n % 16 ^ width) := by
  have hplus : ∀ c ∈ writeHex width n, c ≠ '+' := forall_mem_writeHex (by decide) width n
  have hdigits := digitsFrom_writeHex width 0 n
  rw [Nat.zero_mul, Nat.zero_add] at hdigits
  obtain ⟨c, rest, hs⟩ := List.exists_cons_of_length_pos (length_writeHex width n ▸ hwidth)
  rw [hs] at hplus hdigits ⊢
  rw [read?.eq_def]
  split
  · next heq => exact absurd (List.cons.inj heq).1 (hplus c List.mem_cons_self)
  · exact hdigits

theorem readHexUInt16?_writeHex (n : UInt16) :
    readHexUInt16? (writeHex 4 n.toNat) = some n := by
  have hn : n.toNat < 16 ^ 4 := n.toNat_lt
  rw [readHexUInt16?, read?_writeHex (by decide), Nat.mod_eq_of_lt hn, Option.bind_some,
    if_pos n.toNat_lt, UInt16.ofNat_toNat]

end Numeral

namespace Source

namespace Procfs

open Text (isBlank ReadOf Columns Lined)

/-- A socket, by the addresses and ports of its two sides and its state. -/
structure Socket where
  address : List Char
  port : UInt16
  remoteAddress : List Char
  remotePort : UInt16
  state : UInt8
  address_free : ∀ c ∈ address, ¬ isBlank c
  remoteAddress_free : ∀ c ∈ remoteAddress, ¬ isBlank c

/-- The column of one side. -/
def side (address : List Char) (port : UInt16) : List Char :=
  address ++ ':' :: Numeral.writeHex 4 port.toNat

theorem localPort?_side (address : List Char) (port : UInt16) :
    localPort? (side address port) = some port := by
  have hcolon : ':' ∉ Numeral.writeHex 4 port.toNat :=
    fun h => Numeral.forall_mem_writeHex (P := (· ≠ ':')) (by decide) _ _ ':' h rfl
  rw [localPort?, side, Text.splitLast_append hcolon]
  exact Numeral.readHexUInt16?_writeHex port

namespace Socket

/-- The column of the state. -/
def stateColumn (s : Socket) : List Char := Numeral.writeHex 2 s.state.toNat

theorem stateColumn_eq_established_iff (s : Socket) :
    s.stateColumn = established ↔ s.state = 1 := by
  constructor
  · intro h
    have hstate : s.state.toNat < 16 ^ 2 := s.state.toNat_lt
    have hone : Numeral.read? 16 established = some 1 := rfl
    have hread : Numeral.read? 16 s.stateColumn = some (s.state.toNat % 16 ^ 2) :=
      Numeral.read?_writeHex (by decide) _
    rw [h, hone, Nat.mod_eq_of_lt hstate] at hread
    exact UInt8.toNat_inj.mp (Option.some.inj hread).symm
  · intro h
    rw [stateColumn, h]
    rfl

/-- A line of a socket, whatever is in its first column and in those behind
the state. -/
def Row (s : Socket) (line : List Char) : Prop :=
  ∃ slot more, Columns (slot :: side s.address s.port :: side s.remoteAddress s.remotePort ::
    s.stateColumn :: more) line

/-- Whether a socket counts for a port, or for all ports where none is given. -/
def Counts (port : Option UInt16) (s : Socket) : Prop :=
  s.state = 1 ∧ (port = none ∨ some s.port = port)

instance (port : Option UInt16) (s : Socket) : Decidable (s.Counts port) :=
  inferInstanceAs (Decidable (_ ∧ _))

theorem Row.isEstablished_eq {s : Socket} {line read : List Char} (h : s.Row line)
    (hread : ReadOf read line) (port : Option UInt16) :
    isEstablished port read = decide (s.Counts port) := by
  obtain ⟨slot, more, hcolumns⟩ := h
  obtain ⟨tail, rfl, htail⟩ := hread
  have hwords := hcolumns.words_eq
  rw [Text.words_append_blanks htail] at hwords
  rw [isEstablished, hwords, Bool.eq_iff_iff]
  cases port with
  | none => simp [Counts, stateColumn_eq_established_iff]
  | some q => simp [Counts, stateColumn_eq_established_iff, localPort?_side]

/-! A printed line is such a line. -/

def render (slot : Nat) (s : Socket) : List Char :=
  Numeral.write slot ++ ':' :: ' ' :: (side s.address s.port ++
    ' ' :: (side s.remoteAddress s.remotePort ++ ' ' :: s.stateColumn))

theorem not_isBlank_of_mem_side {address : List Char} (h : ∀ c ∈ address, ¬ isBlank c)
    (port : UInt16) : ∀ c ∈ side address port, ¬ isBlank c := by
  have hport := Numeral.forall_mem_writeHex (P := (¬ isBlank ·)) (by decide) 4 port.toNat
  intro c hc
  rcases List.mem_append.mp hc with hc | hc
  · exact h c hc
  · rcases List.mem_cons.mp hc with rfl | hc
    · decide
    · exact hport c hc

theorem row_render (slot : Nat) (s : Socket) {rest : List Char}
    (hrest : ∀ c ∈ rest.head?, isBlank c) : s.Row (s.render slot ++ rest) := by
  have hside : ∀ address port, side address port ≠ [] := by simp [side]
  have hstate : s.stateColumn ≠ [] := List.ne_nil_of_length_pos
    ((Numeral.length_writeHex 2 s.state.toNat).symm ▸ by decide)
  have hslot : ∀ c ∈ Numeral.write slot ++ [':'], ¬ isBlank c := by
    intro c hc
    rcases List.mem_append.mp hc with hc | hc
    · exact not_isBlank_of_mem_write c hc
    · rw [List.mem_singleton.mp hc]
      decide
  have hdigits := Numeral.forall_mem_writeHex (P := (¬ isBlank ·)) (by decide) 2 s.state.toNat
  have hnone : ∀ c ∈ ([] : List Char), isBlank c := by simp
  have hgap : ∀ c ∈ [' '], isBlank c := by simp [isBlank]
  obtain ⟨more, hmore⟩ := Text.exists_columns rest
  have hcolumns := Columns.cons hnone (by simp) hslot (by simp [isBlank])
    (.cons hgap (hside _ _) (not_isBlank_of_mem_side s.address_free s.port) (by simp [isBlank])
      (.cons hgap (hside _ _) (not_isBlank_of_mem_side s.remoteAddress_free s.remotePort)
        (by simp [isBlank]) (.cons hgap hstate hdigits hrest hmore)))
  refine ⟨Numeral.write slot ++ [':'], more, ?_⟩
  simpa [render] using hcolumns

end Socket

/-! ## The whole table -/

/-- A header, and behind it the lines of some sockets. -/
def SocketTable (sockets : List Socket) (text : List Char) : Prop :=
  ∃ header lines, Lined (header :: lines) text ∧ List.Forall₂ Socket.Row sockets lines

/-- How many of some sockets count. -/
def counted (port : Option UInt16) (sockets : List Socket) : Nat :=
  sockets.countP (·.Counts port)

section

variable {sockets : List Socket} {text : List Char}

theorem countP_of_rows {lines reads : List (List Char)}
    (hrows : List.Forall₂ Socket.Row sockets lines) (hreads : List.Forall₂ ReadOf reads lines)
    (port : Option UInt16) : reads.countP (isEstablished port) = counted port sockets := by
  induction hrows generalizing reads with
  | nil =>
      cases hreads
      rfl
  | @cons s line sockets lines hrow hrows ih =>
      obtain - | ⟨hread, hreads⟩ := hreads
      rw [counted, List.countP_cons, List.countP_cons, hrow.isEstablished_eq hread, ih hreads,
        counted]

theorem countEstablished_of_table (h : SocketTable sockets text) (port : Option UInt16) :
    countEstablished port text = counted port sockets := by
  obtain ⟨header, lines, hlined, hrows⟩ := h
  have hreads := hlined.readOf
  rw [countEstablished]
  generalize Text.lines text = reads at hreads
  obtain - | ⟨-, hreads⟩ := hreads
  exact countP_of_rows hrows hreads port

/-- A count is no larger than its text, so a real one fits its word. -/
theorem counted_le_length (h : SocketTable sockets text) (port : Option UInt16) :
    counted port sockets ≤ text.length := by
  obtain ⟨header, lines, hlined, hrows⟩ := h
  have hcount : counted port sockets ≤ sockets.length := List.countP_le_length
  have hlines := hlined.length_le
  rw [List.length_cons, ← hrows.length_eq] at hlines
  omega

/-- Every socket that counts does so for one port. -/
theorem sum_counted (sockets : List Socket) :
    ∑ q, counted (some q) sockets = counted none sockets := by
  induction sockets with
  | nil => simp [counted]
  | cons s rest ih =>
      have hone : ∑ q, (if s.Counts (some q) then 1 else 0) = if s.Counts none then 1 else 0 := by
        by_cases hstate : s.state = 1 <;> simp [Socket.Counts, hstate]
      simp only [counted, List.countP_cons, decide_eq_true_eq, Finset.sum_add_distrib] at ih ⊢
      rw [ih, hone]

end

end Procfs

namespace Local

open Procfs (Socket SocketTable counted countEstablished)

section

variable {source : Local} {host : Host} {name : String}

theorem table_of_ok {text : List Char}
    (h : host.readText (source.root ++ ("/" ++ name)) = .ok text) :
    source.table host name = .ok text := by
  rw [table, String.append_assoc, h]

theorem table_of_error {failure : ReadFailure}
    (h : host.readText (source.root ++ ("/" ++ name)) = .error failure) :
    source.table host name =
      .error (.unreachable (.unreadableFile (source.root ++ ("/" ++ name)) failure.message)) := by
  rw [table, String.append_assoc, h]

/-- A table that cannot be read has no sockets, if it is that of the newer family. -/
theorem fst_sample_of_older {text : List Char} (h : source.table host "net/tcp" = .ok text)
    (o : Overflow) :
    (source.sample o host .activeConnections).1 = .ok (.ok (.gauge (.ofNat
      (countEstablished source.port text +
        countEstablished source.port ((source.table host "net/tcp6").toOption.getD []))))) := by
  rw [sample, connections, h]
  rfl

theorem fst_sample_of_older_error {cause : SourceError}
    (h : source.table host "net/tcp" = .error cause) (o : Overflow) :
    (source.sample o host .activeConnections).1 = .ok (.error cause) := by
  rw [sample, connections, h]
  rfl

end

/-- Established sockets are counted, all of them or those of one local port, and
the counts of the ports add up to that of all. A source adds up the tables of
both families. It does without the newer one, and without the older one it has
no answer. -/
theorem sockets_counted {sockets : List Socket} {text : List Char}
    (htable : SocketTable sockets text) :
    countEstablished none text = sockets.countP (·.state = 1) ∧
    (∀ q, countEstablished (some q) text = sockets.countP fun s => s.state = 1 ∧ s.port = q) ∧
    ∑ q, countEstablished (some q) text = countEstablished none text ∧
    (∀ port, countEstablished port text ≤ text.length) ∧
    ∀ (source : Local) (o : Overflow) (host : Host),
      let older := host.readText (source.root ++ "/net/tcp")
      let newer := host.readText (source.root ++ "/net/tcp6")
      let answer := (source.sample o host .activeConnections).1
      (older = .ok text →
        (∀ sockets' text', SocketTable sockets' text' → newer = .ok text' →
          answer = .ok (.ok (.gauge (.ofNat
            (counted source.port sockets + counted source.port sockets'))))) ∧
        ∀ failure, newer = .error failure →
          answer = .ok (.ok (.gauge (.ofNat (counted source.port sockets))))) ∧
      ∀ failure, older = .error failure → answer = .ok (.error
        (.unreachable (.unreadableFile (source.root ++ "/net/tcp") failure.message))) := by
  have hcount : ∀ port, countEstablished port text = counted port sockets :=
    Procfs.countEstablished_of_table htable
  refine ⟨?_, ?_, ?_, ?_, ?_⟩
  · rw [hcount, counted]
    simp [Socket.Counts]
  · intro q
    rw [hcount, counted]
    simp [Socket.Counts]
  · simp only [hcount, Procfs.sum_counted]
  · intro port
    rw [hcount]
    exact Procfs.counted_le_length htable port
  · intro source o host older newer answer
    constructor
    · intro holder
      have hanswer : answer = _ := fst_sample_of_older (table_of_ok holder) o
      rw [hcount] at hanswer
      constructor
      · intro sockets' text' htable' hnewer
        have hread : source.table host "net/tcp6" = .ok text' := table_of_ok hnewer
        rw [hanswer, hread, ← Procfs.countEstablished_of_table htable']
        rfl
      · intro failure hnewer
        have hread : source.table host "net/tcp6" = .error _ := table_of_error hnewer
        rw [hanswer, hread]
        rfl
    · intro failure holder
      exact fst_sample_of_older_error (table_of_error holder) o

/-- A socket of the loopback interface. -/
def loopback (port remotePort : UInt16) (state : UInt8) : Socket where
  address := "0100007F".toList
  port := port
  remoteAddress := "0100007F".toList
  remotePort := remotePort
  state := state
  address_free := by simp [Text.isBlank]
  remoteAddress_free := by simp [Text.isBlank]

/-- One listening socket of port 8443, one established, and one that is connected
to this port on the other side. The newer family is not there. -/
theorem sockets_counted_of_one_family :
    let text := "sl\n".toList ++ ((loopback 8443 0 10).render 0 ++
      '\n' :: ((loopback 8443 22 1).render 1 ++
      '\n' :: ((loopback 22 8443 1).render 2 ++ " 0 100".toList)))
    let host : Host := { Host.bare with
      read := fun path =>
        if path = "/proc/net/tcp" then .ok (Text.toBytes (.ofList text)) else .error .notFound }
    let source : Local := { port := some 8443 }
    (source.sample .stops host .activeConnections).1 = .ok (.ok (.gauge 1)) ∧
      countEstablished none text = 2 ∧
      (source.sample .stops Host.bare .activeConnections).1 = .ok (.error (.unreachable
        (.unreadableFile "/proc/net/tcp" "No such file or directory (os error 2)"))) := by
  intro text host source
  let sockets := [loopback 8443 0 10, loopback 8443 22 1, loopback 22 8443 1]
  have hnone : ∀ c ∈ ([] : List Char).head?, Text.isBlank c := by simp
  have hrest : ∀ c ∈ " 0 100".toList.head?, Text.isBlank c := by simp [Text.isBlank]
  have htable : SocketTable sockets text := by
    refine ⟨['s', 'l'], [_, _, _], .cons (by decide) (.cons ?_ (.cons ?_ (.last ?_ ?_))),
      .cons ?_ (.cons ?_ (.cons (Socket.row_render 2 _ hrest) .nil))⟩
    · decide +kernel
    · decide +kernel
    · decide +kernel
    · decide +kernel
    · simpa using Socket.row_render 0 (loopback 8443 0 10) hnone
    · simpa using Socket.row_render 1 (loopback 8443 22 1) hnone
  obtain ⟨hall, -, -, -, hsource⟩ := sockets_counted htable
  refine ⟨?_, hall.trans (by decide +kernel), ?_⟩
  · have holder : host.readText (source.root ++ "/net/tcp") = .ok text := by decide +kernel
    have hnewer : host.readText (source.root ++ "/net/tcp6") = .error .notFound := by
      decide +kernel
    have hcounted : counted source.port sockets = 1 := by decide +kernel
    have hanswer := ((hsource source .stops host).1 holder).2 .notFound hnewer
    rw [hcounted] at hanswer
    exact hanswer
  · exact (hsource source .stops Host.bare).2 .notFound rfl

end Local

end Source

end LinkTelemetry
