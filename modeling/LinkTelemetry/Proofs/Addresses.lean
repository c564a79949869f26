import LinkTelemetry.Export.Exporter
import LinkTelemetry.Proofs.ByteOrder
import LinkTelemetry.Proofs.Framing
import LinkTelemetry.Proofs.Numerals

/-!
# What addresses ask for

An address is text, and the exporter has to find in it what was meant: the
name of an endpoint, or a limit. Every name but one can be asked for. Its
bytes are written as hexadecimal digits, which need no decoding but the
percent signs, and the decoder of bytes gives the characters back
(`scanBytes_toBytes`). Only the empty name has no address, because a path
does not end in the slash before it (`exists_asksFor_iff`).

A limit is asked for in decimal. A number that is too large for its word is
no limit (`limit?_limitQuery`), and the request is refused.
-/

namespace LinkTelemetry

/-! ## Characters as bytes

A character of several bytes is recognised by its first one, and the ranges
for the second one leave out exactly what is no character. -/

namespace Text

theorem leadByte?_two {q : Nat} (hlow : 2 ≤ q) (hhigh : q < 32) :
    leadByte? (q + 0xC0) = some ⟨q, 1, 0x80, 0xBF⟩ := by
  decide +revert

theorem leadByte?_three {q : Nat} (h : q < 16) :
    leadByte? (q + 0xE0) =
      some ⟨q, 2, if q = 0 then 0xA0 else 0x80, if q = 13 then 0x9F else 0xBF⟩ := by
  decide +revert

theorem leadByte?_four {q : Nat} (h : q < 5) :
    leadByte? (q + 0xF0) =
      some ⟨q, 3, if q = 0 then 0x90 else 0x80, if q = 4 then 0x8F else 0xBF⟩ := by
  decide +revert

section

variable {b : UInt8} {bits missing lowest highest : Nat}

theorem scanBytes_lead {p : PartialChar} (hb : 0x80 ≤ b.toNat)
    (hp : leadByte? b.toNat = some p) (rest : List UInt8) :
    scanBytes none (b :: rest) = scanBytes (some p) rest := by
  show (startChar b.toNat).1 ++ scanBytes (startChar b.toNat).2 rest = _
  rw [startChar, if_neg (by omega), hp]
  rfl

theorem scanBytes_next (hmissing : 1 < missing) (hlow : lowest ≤ b.toNat)
    (hhigh : b.toNat ≤ highest) (rest : List UInt8) :
    scanBytes (some ⟨bits, missing, lowest, highest⟩) (b :: rest) =
      scanBytes (some ⟨bits * 64 + (b.toNat - 0x80), missing - 1, 0x80, 0xBF⟩) rest := by
  show (continueChar _ b.toNat).1 ++ scanBytes (continueChar _ b.toNat).2 rest = _
  rw [continueChar, if_pos ⟨hlow, hhigh⟩, if_neg (Nat.not_le.mpr hmissing)]
  rfl

theorem scanBytes_last (hlow : lowest ≤ b.toNat) (hhigh : b.toNat ≤ highest)
    (rest : List UInt8) :
    scanBytes (some ⟨bits, 1, lowest, highest⟩) (b :: rest) =
      some (.ofNat (bits * 64 + (b.toNat - 0x80))) :: scanBytes none rest := by
  show (continueChar _ b.toNat).1 ++ scanBytes (continueChar _ b.toNat).2 rest = _
  rw [continueChar, if_pos ⟨hlow, hhigh⟩, if_pos (Nat.le_refl 1)]
  rfl

end

/-- The bytes of a character come to the character. -/
theorem scanBytes_encodeChar (c : Char) (rest : List UInt8) :
    scanBytes none (String.utf8EncodeChar c ++ rest) = some c :: scanBytes none rest := by
  have hvalid : c.toNat < 0xD800 ∨ 0xDFFF < c.toNat ∧ c.toNat < 0x110000 := c.valid
  have hchar : ∀ n, n = c.toNat → some (Char.ofNat n) = some c := by
    rintro n rfl
    rw [Char.ofNat_toNat]
  have hbyte : ∀ n, n < 256 → (UInt8.ofNat n).toNat = n := fun _ => UInt8.toNat_ofNat_of_lt
  rw [String.utf8EncodeChar]
  generalize hv : c.val.toNat = v
  change c.toNat = v at hv
  rw [hv] at hvalid hchar
  split
  · have hb := hbyte v (by omega)
    show (startChar _).1 ++ scanBytes (startChar _).2 rest = _
    rw [startChar, hb, if_pos (by omega)]
    exact congrArg (· :: _) (hchar v rfl)
  · split
    · have hlead := hbyte (v / 64 % 32 + 0xC0) (by omega)
      have hlast := hbyte (v % 64 + 0x80) (by omega)
      rw [List.cons_append, List.singleton_append,
        scanBytes_lead (by omega) (hlead ▸ leadByte?_two (by omega) (by omega)),
        scanBytes_last (by omega) (by omega), hlast]
      exact congrArg (· :: _) (hchar _ (by omega))
    · split
      · have hlead := hbyte (v / 4096 % 16 + 0xE0) (by omega)
        have hnext := hbyte (v / 64 % 64 + 0x80) (by omega)
        have hlast := hbyte (v % 64 + 0x80) (by omega)
        rw [List.cons_append, List.cons_append, List.singleton_append,
          scanBytes_lead (by omega) (hlead ▸ leadByte?_three (by omega)),
          scanBytes_next (by decide) (by split <;> omega) (by split <;> omega),
          scanBytes_last (by omega) (by omega), hnext, hlast]
        exact congrArg (· :: _) (hchar _ (by omega))
      · have hlead := hbyte (v / 262144 % 8 + 0xF0) (by omega)
        have hnext := hbyte (v / 4096 % 64 + 0x80) (by omega)
        have hthird := hbyte (v / 64 % 64 + 0x80) (by omega)
        have hlast := hbyte (v % 64 + 0x80) (by omega)
        rw [List.cons_append, List.cons_append, List.cons_append, List.singleton_append,
          scanBytes_lead (by omega) (hlead ▸ leadByte?_four (by omega)),
          scanBytes_next (by decide) (by split <;> omega) (by split <;> omega),
          scanBytes_next (by decide) (by omega) (by omega),
          scanBytes_last (by omega) (by omega), hnext, hthird, hlast]
        exact congrArg (· :: _) (hchar _ (by omega))

theorem scanBytes_toBytes (s : List Char) : scanBytes none (toBytes (.ofList s)) = s.map some := by
  rw [toBytes_ofList]
  induction s with
  | nil => rfl
  | cons c rest ih => rw [List.flatMap_cons, scanBytes_encodeChar, ih, List.map_cons]

theorem ofBytes?_toBytes (s : List Char) : ofBytes? (toBytes (.ofList s)) = some s := by
  rw [ofBytes?, scanBytes_toBytes, List.mapM_map]
  exact List.mapM_pure.trans (congrArg some (List.map_id s))

theorem ofBytesLossy_toBytes (s : List Char) : ofBytesLossy (toBytes (.ofList s)) = s := by
  rw [ofBytesLossy, scanBytes_toBytes, List.map_map]
  exact List.map_id s

theorem scanBytes_ne_nil (state : Option PartialChar) (bytes : List UInt8)
    (h : state.isSome ∨ bytes ≠ []) : scanBytes state bytes ≠ [] := by
  induction bytes generalizing state with
  | nil =>
      obtain ⟨p, rfl⟩ := Option.isSome_iff_exists.mp (h.resolve_right fun h => h rfl)
      exact List.cons_ne_nil _ _
  | cons b rest ih =>
      have hstart : ∀ n, (startChar n).1 ≠ [] ∨ (startChar n).2.isSome := by
        intro n
        rw [startChar]
        split
        · exact .inl (List.cons_ne_nil _ _)
        · split
          · exact .inr rfl
          · exact .inl (List.cons_ne_nil _ _)
      have hcontinue : ∀ p n, (continueChar p n).1 ≠ [] ∨ (continueChar p n).2.isSome := by
        intro p n
        rw [continueChar]
        split
        · split
          · exact .inl (List.cons_ne_nil _ _)
          · exact .inr rfl
        · exact .inl (List.cons_ne_nil _ _)
      have happend : ∀ (done : List (Option Char)) (next : Option PartialChar),
          done ≠ [] ∨ next.isSome → done ++ scanBytes next rest ≠ [] := by
        rintro done next hstep hnil
        rw [List.append_eq_nil_iff] at hnil
        exact hstep.elim (· hnil.1) fun hnext => ih next (.inl hnext) hnil.2
      cases state with
      | none => exact happend _ _ (hstart b.toNat)
      | some p => exact happend _ _ (hcontinue p b.toNat)

theorem eq_nil_of_ofBytes? {bytes : List UInt8} (h : ofBytes? bytes = some []) : bytes = [] := by
  by_contra hne
  have hscan := scanBytes_ne_nil none bytes (.inr hne)
  obtain ⟨c, rest, hcons⟩ := List.exists_cons_of_ne_nil hscan
  rw [ofBytes?, hcons, List.mapM_cons] at h
  cases c with
  | none => cases h
  | some c =>
      obtain ⟨_, hc, h⟩ := Option.bind_eq_some_iff.mp h
      obtain ⟨_, hrest, h⟩ := Option.bind_eq_some_iff.mp h
      cases h

end Text

namespace Export

/-! ## Percent signs -/

/-- Bytes as an address may hold them, each with a percent sign. -/
def percentEncode (bytes : List UInt8) : List Char :=
  bytes.flatMap fun b => ['%', (b.toNat / 16).digitChar, (b.toNat % 16).digitChar]

theorem digit?_hexadecimal : ∀ d < 16, Numeral.digit? 16 d.digitChar = some d := by
  decide

theorem ofDigits?_hexadecimal {high low : Nat} (hhigh : high < 16) (hlow : low < 16) :
    Numeral.ofDigits? 16 [high.digitChar, low.digitChar] = some (high * 16 + low) := by
  show Numeral.digitsFrom 16 0 _ = _
  simp only [Numeral.digitsFrom, digit?_hexadecimal high hhigh, digit?_hexadecimal low hlow,
    Nat.zero_mul, Nat.zero_add]

theorem percentDecode_percentEncode (bytes : List UInt8) :
    percentDecode (percentEncode bytes) = bytes := by
  induction bytes with
  | nil => rfl
  | cons b rest ih =>
      have hb : b.toNat < 256 := b.toNat_lt
      have hhigh : b.toNat / 16 < 16 := by omega
      have hlow : b.toNat % 16 < 16 := by omega
      have hdigits := ofDigits?_hexadecimal hhigh hlow
      rw [Nat.div_add_mod'] at hdigits
      show percentDecode ('%' :: _ :: _ :: percentEncode rest) = _
      rw [percentDecode, hdigits, ih]
      exact congrArg (· :: rest) UInt8.ofNat_toNat

theorem percentDecode_of_literal {s : List Char} (h : '%' ∉ s) :
    percentDecode s = Text.toBytes (.ofList s) := by
  induction s with
  | nil => rfl
  | cons c rest ih =>
      rw [List.mem_cons, not_or] at h
      rw [percentDecode.eq_def]
      split
      · next heq => cases heq
      · next heq =>
          obtain ⟨rfl, -⟩ := List.cons.inj heq
          exact absurd rfl h.1
      · next c' rest' heq =>
          obtain ⟨rfl, rfl⟩ := List.cons.inj heq
          rw [ih h.2, String.singleton_eq_ofList, Text.toBytes_ofList, Text.toBytes_ofList,
            Text.toBytes_ofList, ← List.flatMap_append]
          rfl

theorem eq_nil_of_percentDecode {s : List Char} (h : percentDecode s = []) : s = [] := by
  rw [percentDecode.eq_def] at h
  split at h
  · rfl
  · split at h
    · cases h
    · cases h
  · next c rest _ =>
      rw [List.append_eq_nil_iff, String.singleton_eq_ofList, Text.toBytes_ofList,
        List.flatMap_singleton] at h
      exact absurd h.1 String.utf8EncodeChar_ne_nil

theorem formDecode_of_literal {s : List Char} (hpercent : '%' ∉ s) (hplus : '+' ∉ s) :
    formDecode s = .ofList s := by
  have hsame : (s.map fun c => if c == '+' then ' ' else c) = s := by
    refine (List.map_congr_left fun c hc => ?_).trans (List.map_id s)
    have hne : c ≠ '+' := fun h => hplus (h ▸ hc)
    simp [hne]
  rw [formDecode, hsame, percentDecode_of_literal hpercent, Text.ofBytesLossy_toBytes]

/-! ## Addresses on the exporter's own site -/

theorem takeWhile_of_not_mem {c : Char} {s : List Char} (h : c ∉ s) : s.takeWhile (· != c) = s := by
  refine List.takeWhile_eq_self_iff.mpr fun d hd => ?_
  rw [bne_iff_ne]
  exact fun heq => h (heq ▸ hd)

theorem ofUri_path (method : String) {path : List Char} (hfragment : '#' ∉ '/' :: path)
    (hquery : '?' ∉ '/' :: path) :
    Request.ofUri method (.ofList ('/' :: path)) = ⟨method, '/' :: path, []⟩ := by
  rw [Request.ofUri, String.toList_ofList, localPart, takeWhile_of_not_mem hfragment,
    Text.splitOnce_eq_none hquery]

theorem ofUri_query (method : String) {path query : List Char}
    (hfragment : '#' ∉ '/' :: path ++ '?' :: query) (hquery : '?' ∉ '/' :: path) :
    Request.ofUri method (.ofList ('/' :: path ++ '?' :: query)) =
      ⟨method, '/' :: path, query⟩ := by
  have hlocal : localPart ('/' :: path ++ '?' :: query) = '/' :: path ++ '?' :: query := rfl
  rw [Request.ofUri, String.toList_ofList, hlocal, takeWhile_of_not_mem hfragment,
    Text.splitOnce_append hquery]

/-! ## Endpoints -/

/-- A request for what is known of an endpoint. -/
def Request.AsksFor (r : Request) (e : EndpointName) : Prop :=
  r.method = "GET" ∧ ∃ encoded, route? r.path = some (.endpoint encoded) ∧
    Text.ofBytes? (percentDecode encoded) = some e.toList

/-- The address of an endpoint, with every byte of its name encoded. -/
def endpointAddress (e : EndpointName) : String :=
  .ofList ("/endpoints/".toList ++ percentEncode (Text.toBytes e))

theorem route?_endpoint {encoded : List Char} (hne : encoded ≠ []) (hslash : '/' ∉ encoded) :
    route? ("/endpoints/".toList ++ encoded) = some (.endpoint encoded) := by
  have hrest : Text.dropHead? "/endpoints/".toList ("/endpoints/".toList ++ encoded) =
      some encoded := rfl
  rw [route?, if_neg (by simp), if_neg (by simp), if_neg (by simp), hrest]
  simp [hne, hslash]

theorem of_route?_endpoint {path encoded : List Char} (h : route? path = some (.endpoint encoded)) :
    encoded ≠ [] := by
  rw [route?] at h
  split at h
  · cases h
  · split at h
    · cases h
    · split at h
      · cases h
      · split at h
        · next name hname =>
            split at h
            · cases h
            · next hrefused =>
                cases h
                rintro rfl
                exact hrefused rfl
        · cases h

theorem not_mem_percentEncode {c : Char} (hpercent : c ≠ '%') (hdigit : ∀ d < 16, c ≠ d.digitChar)
    (bytes : List UInt8) : c ∉ percentEncode bytes := by
  intro h
  obtain ⟨b, -, hc⟩ := List.mem_flatMap.mp h
  have hb : b.toNat < 256 := b.toNat_lt
  rw [List.mem_cons, List.mem_cons, List.mem_singleton] at hc
  rcases hc with hc | hc | hc
  · exact hpercent hc
  · exact hdigit _ (by omega) hc
  · exact hdigit _ (by omega) hc

theorem asksFor_endpointAddress {e : EndpointName} (he : e ≠ "") :
    (Request.ofUri "GET" (endpointAddress e)).AsksFor e := by
  have hslash : '/' ∉ percentEncode (Text.toBytes e) :=
    not_mem_percentEncode (by decide) (by decide) _
  have hhash : '#' ∉ percentEncode (Text.toBytes e) :=
    not_mem_percentEncode (by decide) (by decide) _
  have hquery : '?' ∉ percentEncode (Text.toBytes e) :=
    not_mem_percentEncode (by decide) (by decide) _
  have hne : percentEncode (Text.toBytes e) ≠ [] := by
    intro hnil
    have hbytes : Text.toBytes e = [] := by
      rw [← percentDecode_percentEncode (Text.toBytes e), hnil]
      rfl
    have hname := Text.ofBytes?_toBytes e.toList
    rw [String.ofList_toList, hbytes] at hname
    exact he (String.toList_eq_nil_iff.mp (Option.some.inj hname).symm)
  have hpath : ∀ mark, mark ∉ "/endpoints/".toList → mark ∉ percentEncode (Text.toBytes e) →
      mark ∉ "/endpoints/".toList ++ percentEncode (Text.toBytes e) :=
    fun _ => List.not_mem_append
  have hrequest : Request.ofUri "GET" (endpointAddress e) =
      ⟨"GET", "/endpoints/".toList ++ percentEncode (Text.toBytes e), []⟩ :=
    ofUri_path "GET" (hpath '#' (by decide) hhash) (hpath '?' (by decide) hquery)
  rw [hrequest]
  refine ⟨rfl, percentEncode (Text.toBytes e), route?_endpoint hne hslash, ?_⟩
  have hname := Text.ofBytes?_toBytes e.toList
  rwa [String.ofList_toList, ← percentDecode_percentEncode (Text.toBytes e)] at hname

/-- Every name but the empty one can be asked for. -/
theorem exists_asksFor_iff (e : EndpointName) :
    (∃ uri, (Request.ofUri "GET" uri).AsksFor e) ↔ e ≠ "" := by
  constructor
  · rintro ⟨uri, -, encoded, hroute, hname⟩ rfl
    exact of_route?_endpoint hroute (eq_nil_of_percentDecode (Text.eq_nil_of_ofBytes? hname))
  · exact fun he => ⟨endpointAddress e, asksFor_endpointAddress he⟩

theorem respond_of_asksFor (x : Exporter) (store : Store) {r : Request} {e : EndpointName}
    (h : r.AsksFor e) : x.respond store r = x.aboutEndpoint store e := by
  obtain ⟨hmethod, encoded, hroute, hname⟩ := h
  rw [Exporter.respond, hroute]
  simp only [hmethod, if_true]
  rw [Exporter.answer, hname]
  simp only [String.ofList_toList]

/-! ## Limits -/

theorem not_mem_write {c : Char} (hc : ¬ Decimal.isDigit c) (n : Nat) : c ∉ Numeral.write n :=
  fun h => hc (Numeral.isDigit_of_mem_write h)

/-- The query that sets a limit. -/
def limitQuery (n : Nat) : List Char := "limit=".toList ++ Numeral.write n

theorem not_mem_limitQuery {c : Char} (hname : c ∉ "limit=".toList) (hc : ¬ Decimal.isDigit c)
    (n : Nat) : c ∉ limitQuery n :=
  List.not_mem_append hname (not_mem_write hc n)

/-- A limit of at most 64 bits is taken as it is written, and a larger one is
no limit. -/
theorem limit?_limitQuery (n : Nat) :
    limit? (limitQuery n) = if n < 2 ^ 64 then some (some n) else none := by
  have hpieces : Text.pieces (· == '&') (limitQuery n) = [limitQuery n] := by
    refine Text.pieces_of_forall fun c hc hmark => ?_
    rw [beq_iff_eq] at hmark
    exact not_mem_limitQuery (by decide) (by decide) n (hmark ▸ hc)
  have hmark : '=' ∉ "limit".toList := by decide
  have hsplit : Text.splitOnce '=' (limitQuery n) = some ("limit".toList, Numeral.write n) :=
    Text.splitOnce_append hmark (Numeral.write n)
  have hname : formDecode "limit".toList = "limit" :=
    formDecode_of_literal (by decide) (by decide)
  have hvalue : formDecode (Numeral.write n) = .ofList (Numeral.write n) :=
    formDecode_of_literal (not_mem_write (by decide) n) (not_mem_write (by decide) n)
  have hpairs : queryPairs (limitQuery n) = [("limit", .ofList (Numeral.write n))] := by
    have hwhole : [limitQuery n].filter (!·.isEmpty) = [limitQuery n] := rfl
    rw [queryPairs, hpieces, hwhole, List.map_singleton, hsplit]
    simp only [hname, hvalue]
  rw [limit?, hpairs]
  show (Numeral.readUInt64? (String.ofList (Numeral.write n)).toList).map _ = _
  rw [String.toList_ofList, Numeral.readUInt64?_write]
  split
  · next h =>
      have hn : (UInt64.ofNat n).toNat = n := UInt64.toNat_ofNat_of_lt h
      rw [if_pos (by exact h), Option.map_some, hn]
  · next h => rw [if_neg (by exact h), Option.map_none]

/-- The address of the history with a limit. -/
def limitAddress (n : Nat) : String := "/metrics?limit=" ++ toString n

theorem ofUri_limitAddress (n : Nat) :
    Request.ofUri "GET" (limitAddress n) = ⟨"GET", "/metrics".toList, limitQuery n⟩ := by
  have haddress : limitAddress n = .ofList ("/metrics".toList ++ '?' :: limitQuery n) := by
    have hsame : "/metrics".toList ++ '?' :: limitQuery n =
        "/metrics?limit=".toList ++ Numeral.write n := rfl
    rw [hsame, String.ofList_append, String.ofList_toList]
    exact congrArg ("/metrics?limit=" ++ ·) Nat.toString_eq_ofList_toDigits
  have hfragment : '#' ∉ "/metrics".toList ++ '?' :: limitQuery n :=
    List.not_mem_append (by decide)
      (List.not_mem_cons_of_ne_of_not_mem (by decide)
        (not_mem_limitQuery (by decide) (by decide) n))
  rw [haddress]
  exact ofUri_query "GET" hfragment (by decide)

end Export

end LinkTelemetry
