/-!
# Documents as trees of values

Configurations come as JSON or TOML and leave as either; both formats are
read into and written from the same tree. Whole numbers and others are kept
apart, since a port written `161.0` is not a port. The fields of a table are
in the order of the document, or in the one they are to be written in.
-/

namespace LinkTelemetry

inductive Tree where
  | null
  | flag (value : Bool)
  | whole (value : Int)
  | real (value : Float)
  | text (value : String)
  /-- A date, a time or both, which no setting takes. -/
  | moment (value : String)
  | list (items : List Tree)
  | table (fields : List (String × Tree))

namespace Tree

/-- A number that documents can hold; one that is not finite is written as no
value. -/
def number (x : Float) : Tree := if x.isFinite then .real x else .null

def optional {α : Type} (write : α → Tree) : Option α → Tree
  | some x => write x
  | none => .null

/-- The value of the first field of a name. -/
def lookup (name : String) : List (String × Tree) → Option Tree
  | [] => none
  | (k, v) :: rest => if k = name then some v else lookup name rest

mutual

/-- A document without its empty fields, at every level. -/
def withoutNulls : Tree → Tree
  | .list items => .list (itemsWithoutNulls items)
  | .table fields => .table (fieldsWithoutNulls fields)
  | other => other

def itemsWithoutNulls : List Tree → List Tree
  | [] => []
  | item :: rest => item.withoutNulls :: itemsWithoutNulls rest

def fieldsWithoutNulls : List (String × Tree) → List (String × Tree)
  | [] => []
  | (_, .null) :: rest => fieldsWithoutNulls rest
  | (name, value) :: rest => (name, value.withoutNulls) :: fieldsWithoutNulls rest

end

end Tree

end LinkTelemetry
