import LinkTelemetry.Decimal.Fixed
import LinkTelemetry.Decimal.Reader
import LinkTelemetry.Text.Utf8

/-!
# Printing commands

What the two commands that print their arguments write. Both work on bytes,
since an escape may stand for any byte.
-/

namespace LinkTelemetry.Host

/-- The byte of an escape of one letter. -/
def letterEscape? : Char → Option UInt8
  | 'a' => some 7
  | 'b' => some 8
  | 'f' => some 12
  | 'n' => some 10
  | 'r' => some 13
  | 't' => some 9
  | 'v' => some 11
  | '\\' => some 92
  | _ => none

def isOctal (c : Char) : Bool := '0' ≤ c && c ≤ '7'

/-- The octal digits at the head of a text, at most `n`, as a byte. -/
def octal (n : Nat) (s : List Char) : UInt8 × List Char :=
  let digits := (s.take n).takeWhile isOctal
  (.ofNat (digits.foldl (fun value c => value * 8 + (c.toNat - 48)) 0), s.drop digits.length)

/-- The bytes of a text with escapes, and whether it goes on after them. A
leading zero of an octal escape is not one of its three digits if `zeroFirst`
is set. -/
def unescape (zeroFirst : Bool) : Nat → List Char → List UInt8 × Bool
  | 0, _ => ([], true)
  | _ + 1, [] => ([], true)
  | fuel + 1, '\\' :: c :: rest =>
    let put (b : UInt8) (rest : List Char) : List UInt8 × Bool :=
      let (more, goesOn) := unescape zeroFirst fuel rest
      (b :: more, goesOn)
    if c == 'c' then ([], false)
    else
      match letterEscape? c with
      | some b => put b rest
      | none =>
        if zeroFirst && c == '0' then
          let (b, rest) := octal 3 rest
          put b rest
        else if isOctal c then
          let (b, rest) := octal 3 (c :: rest)
          put b rest
        else put 92 (c :: rest)
  | fuel + 1, c :: rest =>
    let (more, goesOn) := unescape zeroFirst fuel rest
    (Text.toBytes (String.singleton c) ++ more, goesOn)

/-- Arguments between blanks, and a line feed unless they end it themselves. -/
def echo (escapes newline : Bool) (args : List String) : List UInt8 :=
  let text := " ".intercalate args
  if escapes then
    let (bytes, goesOn) := unescape true (text.length + 1) text.toList
    bytes ++ (if newline && goesOn then [10] else [])
  else Text.toBytes text ++ (if newline then [10] else [])

/-- The flags of the program `echo` at the head of its arguments: whether it
escapes, whether it ends the line, and the other arguments. -/
def echoFlags (escapes newline : Bool) : List String → Bool × Bool × List String
  | [] => (escapes, newline, [])
  | arg :: rest =>
    match arg.toList with
    | '-' :: c :: flags =>
      if (c :: flags).all fun f => f == 'n' || f == 'e' || f == 'E' then
        let last := ((c :: flags).filter (· != 'n')).getLast?
        echoFlags ((last.map (· == 'e')).getD escapes)
          (newline && !(c :: flags).contains 'n') rest
      else (escapes, newline, arg :: rest)
    | _ => (escapes, newline, arg :: rest)

/-! ## Formats -/

/-- One conversion: its width, the places behind the point, and its letter. -/
structure Conversion where
  left : Bool
  zeros : Bool
  width : Nat
  places : Option Nat
  letter : Char

/-- A conversion after its percent sign, and what follows it. -/
def conversion? (s : List Char) : Option (Conversion × List Char) :=
  let flags := s.takeWhile fun c => c == '-' || c == '0'
  let s := s.dropWhile fun c => c == '-' || c == '0'
  let width := (Numeral.ofDigits? 10 (s.takeWhile Decimal.isDigit)).getD 0
  let s := s.dropWhile Decimal.isDigit
  let (places, s) :=
    match s with
    | '.' :: rest =>
      (some ((Numeral.ofDigits? 10 (rest.takeWhile Decimal.isDigit)).getD 0),
        rest.dropWhile Decimal.isDigit)
    | s => (none, s)
  match s with
  | c :: rest => some (⟨flags.contains '-', flags.contains '0', width, places, c⟩, rest)
  | [] => none

/-- Bytes filled up to the width of a conversion. -/
def Conversion.fill (c : Conversion) (number : Bool) (bytes : List UInt8) : List UInt8 :=
  let missing := c.width - bytes.length
  if c.left then bytes ++ List.replicate missing 32
  else List.replicate missing (if c.zeros && number then 48 else 32) ++ bytes

/-- An argument under a conversion. -/
def Conversion.apply (c : Conversion) (arg : String) : List UInt8 :=
  match c.letter with
  | 's' =>
    let bytes := Text.toBytes arg
    c.fill false (match c.places with
      | some n => bytes.take n
      | none => bytes)
  | 'b' => c.fill false (unescape true (arg.length + 1) arg.toList).1
  | 'c' => c.fill false ((Text.toBytes arg).take 1)
  | 'f' =>
    c.fill true (Text.toBytes (Decimal.fixed (c.places.getD 6) ((Decimal.read? arg.toList).getD 0)))
  | 'x' =>
    c.fill true (Text.toBytes (.ofList (Nat.toDigits 16 ((Numeral.read? 10 arg.toList).getD 0))))
  | 'o' =>
    c.fill true (Text.toBytes (.ofList (Nat.toDigits 8 ((Numeral.read? 10 arg.toList).getD 0))))
  | _ =>
    match arg.toList with
    | '-' :: digits =>
      c.fill true (Text.toBytes ("-" ++ toString ((Numeral.read? 10 digits).getD 0)))
    | digits => c.fill true (Text.toBytes (toString ((Numeral.read? 10 digits).getD 0)))

/-- One pass over a format: what is written, and the arguments left over. -/
def formatOnce : Nat → List Char → List String → List UInt8 × List String
  | 0, _, args => ([], args)
  | _ + 1, [], args => ([], args)
  | fuel + 1, '%' :: '%' :: rest, args =>
    let (more, args) := formatOnce fuel rest args
    (37 :: more, args)
  | fuel + 1, '%' :: rest, args =>
    match conversion? rest with
    | none => ([37], args)
    | some (c, rest) =>
      let (more, left) := formatOnce fuel rest (args.drop 1)
      (c.apply (args.head?.getD "") ++ more, left)
  | fuel + 1, '\\' :: c :: rest, args =>
    match letterEscape? c with
    | some b =>
      let (more, args) := formatOnce fuel rest args
      (b :: more, args)
    | none =>
      if isOctal c then
        let (b, rest) := octal 3 (c :: rest)
        let (more, args) := formatOnce fuel rest args
        (b :: more, args)
      else
        let (more, args) := formatOnce fuel (c :: rest) args
        (92 :: more, args)
  | fuel + 1, c :: rest, args =>
    let (more, args) := formatOnce fuel rest args
    (Text.toBytes (String.singleton c) ++ more, args)

/-- A format written as often as there are arguments for it, once at least. -/
def printf (format : String) : Nat → List String → List UInt8
  | 0, _ => []
  | fuel + 1, args =>
    let (bytes, left) := formatOnce (format.length + 1) format.toList args
    if left.isEmpty || left.length == args.length then bytes else bytes ++ printf format fuel left

end LinkTelemetry.Host
