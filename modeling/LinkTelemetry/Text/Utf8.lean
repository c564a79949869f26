/-!
# Bytes as characters

Programs and files give bytes, and the readers want characters. A machine
goes over the bytes one at a time and keeps the part of a character that it
has seen. What cannot become a character is given up at the first byte that
rules it out, and that byte is looked at again as the start of another one.
-/

namespace LinkTelemetry.Text

/-- The part of a character that has been seen: its bits so far, the bytes
still to come, and the range of the next one. -/
structure PartialChar where
  bits : Nat
  missing : Nat
  lowest : Nat := 0x80
  highest : Nat := 0xBF
  deriving DecidableEq, Repr

/-- What the first byte of a character of several bytes asks for. The ranges
leave out characters written too long and numbers that are no characters. -/
def leadByte? (b : Nat) : Option PartialChar :=
  if 0xC2 ≤ b ∧ b ≤ 0xDF then some ⟨b - 0xC0, 1, 0x80, 0xBF⟩
  else if b = 0xE0 then some ⟨0, 2, 0xA0, 0xBF⟩
  else if b = 0xED then some ⟨0xD, 2, 0x80, 0x9F⟩
  else if 0xE1 ≤ b ∧ b ≤ 0xEF then some ⟨b - 0xE0, 2, 0x80, 0xBF⟩
  else if b = 0xF0 then some ⟨0, 3, 0x90, 0xBF⟩
  else if 0xF1 ≤ b ∧ b ≤ 0xF3 then some ⟨b - 0xF0, 3, 0x80, 0xBF⟩
  else if b = 0xF4 then some ⟨4, 3, 0x80, 0x8F⟩
  else none

/-- A byte at the start of a character: what is finished with it, where
`none` is something that is no character, and what is begun. -/
def startChar (b : Nat) : List (Option Char) × Option PartialChar :=
  if b < 0x80 then ([some (.ofNat b)], none)
  else
    match leadByte? b with
    | some p => ([], some p)
    | none => ([none], none)

/-- The next byte after a part of a character. -/
def continueChar (p : PartialChar) (b : Nat) : List (Option Char) × Option PartialChar :=
  if p.lowest ≤ b ∧ b ≤ p.highest then
    let bits := p.bits * 64 + (b - 0x80)
    if p.missing ≤ 1 then ([some (.ofNat bits)], none)
    else ([], some ⟨bits, p.missing - 1, 0x80, 0xBF⟩)
  else
    let (done, next) := startChar b
    (none :: done, next)

/-- The characters of a text in bytes; `none` stands for bytes that are no
character. -/
def scanBytes : Option PartialChar → List UInt8 → List (Option Char)
  | none, [] => []
  | some _, [] => [none]
  | state, b :: rest =>
    let (done, next) :=
      match state with
      | none => startChar b.toNat
      | some p => continueChar p b.toNat
    done ++ scanBytes next rest

/-- The text in bytes, if all of them are characters. -/
def ofBytes? (bytes : List UInt8) : Option (List Char) := (scanBytes none bytes).mapM id

/-- The text in bytes, with U+FFFD for what is no character. -/
def ofBytesLossy (bytes : List UInt8) : List Char :=
  (scanBytes none bytes).map fun c => c.getD '\uFFFD'

/-- The bytes of a text. -/
def toBytes (text : String) : List UInt8 := text.toUTF8.data.toList

end LinkTelemetry.Text
