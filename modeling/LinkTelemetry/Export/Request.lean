import LinkTelemetry.Numeral
import LinkTelemetry.Text.Split
import LinkTelemetry.Text.Utf8

/-!
# Requests

A request is a method, a path and a query. Paths are compared as they are
written; only a name inside a path and the keys and values of a query are
decoded, the one strictly, the others with replacement characters.
-/

namespace LinkTelemetry.Export

structure Request where
  method : String
  path : List Char
  query : List Char
  deriving DecidableEq, Repr

/-- The bytes that a percent-encoded text stands for. A percent sign without
two hexadecimal digits stands for itself. -/
def percentDecode : List Char → List UInt8
  | [] => []
  | '%' :: a :: b :: rest =>
    match Numeral.ofDigits? 16 [a, b] with
    | some n => .ofNat n :: percentDecode rest
    | none => 0x25 :: percentDecode (a :: b :: rest)
  | c :: rest => Text.toBytes (String.singleton c) ++ percentDecode rest

/-- An address without scheme and host, which it need not have. -/
def localPart (uri : List Char) : List Char :=
  match uri with
  | '/' :: _ => uri
  | _ =>
    match Text.splitOnceAt "://".toList uri with
    | some (_, rest) =>
      match rest.dropWhile fun c => c != '/' && c != '?' && c != '#' with
      | '/' :: path => '/' :: path
      | other => '/' :: other
    | none => uri

/-- The request of a method and an address, whose fragment does not count. -/
def Request.ofUri (method uri : String) : Request :=
  let target := (localPart uri.toList).takeWhile (· != '#')
  match Text.splitOnce '?' target with
  | some (path, query) => ⟨method, path, query⟩
  | none => ⟨method, target, []⟩

/-! ## Queries -/

/-- A key or a value of a query; a plus sign stands for a blank. -/
def formDecode (s : List Char) : String :=
  .ofList (Text.ofBytesLossy (percentDecode (s.map fun c => if c == '+' then ' ' else c)))

/-- The keys and values of a query, in order. -/
def queryPairs (query : List Char) : List (String × String) :=
  ((Text.pieces (· == '&') query).filter (!·.isEmpty)).map fun part =>
    match Text.splitOnce '=' part with
    | some (key, value) => (formDecode key, formDecode value)
    | none => (formDecode part, "")

/-- The limit that a query sets, if any; `none` if it is no number or set
twice. -/
def limit? (query : List Char) : Option (Option Nat) :=
  match (queryPairs query).filter (·.1 = "limit") with
  | [] => some none
  | [(_, value)] => (Numeral.readUInt64? value.toList).map fun n => some n.toNat
  | _ => none

/-! ## Routes -/

/-- What a path leads to. -/
inductive Route where
  | index
  | metrics
  | health
  /-- The snapshot of one endpoint, by its encoded name. -/
  | endpoint (encoded : List Char)
  deriving DecidableEq, Repr

/-- The route of a path. A name has one character at least and no slash. -/
def route? (path : List Char) : Option Route :=
  if path = "/".toList then some .index
  else if path = "/metrics".toList then some .metrics
  else if path = "/health".toList then some .health
  else
    match Text.dropHead? "/endpoints/".toList path with
    | some name => if name.isEmpty || name.contains '/' then none else some (.endpoint name)
    | none => none

end LinkTelemetry.Export
