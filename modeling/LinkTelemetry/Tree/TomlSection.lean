import LinkTelemetry.Tree

/-!
# Tables of a TOML document

A document fills its tables line by line, under headers and through keys with
points, and what has been defined once cannot be defined again. How a table
came into being decides what may still be added to it, so tables under
construction carry their origin. The fields keep the order in which the
document defines them.
-/

namespace LinkTelemetry.Tree.Toml

/-- How a table came into being. -/
inductive Origin where
  /-- Under a header of its own. -/
  | header
  /-- Only named so far, in the header of a table inside it. -/
  | implied
  /-- Through a key with points. -/
  | dotted
  deriving DecidableEq, Repr

/-- A value under construction. Complete values are never added to. -/
inductive Node where
  | value (t : Tree)
  | table (origin : Origin) (fields : List (String × Node))
  /-- A list of tables, each under a header. -/
  | tables (items : List Node)

abbrev Fields := List (String × Node)

mutual

def Node.toTree : Node → Tree
  | .value t => t
  | .table _ fields => .table (fieldsToTree fields)
  | .tables items => .list (itemsToTree items)

def fieldsToTree : List (String × Node) → List (String × Tree)
  | [] => []
  | (key, node) :: rest => (key, node.toTree) :: fieldsToTree rest

def itemsToTree : List Node → List Tree
  | [] => []
  | node :: rest => node.toTree :: itemsToTree rest

end

def Fields.find (key : String) : Fields → Option Node
  | [] => none
  | (k, node) :: rest => if k = key then some node else Fields.find key rest

/-- Puts a node in the place of the field of a key, or at the end. -/
def Fields.put (key : String) (node : Node) : Fields → Fields
  | [] => [(key, node)]
  | (k, old) :: rest =>
    if k = key then (k, node) :: rest else (k, old) :: Fields.put key node rest

def Fields.remove (key : String) (fields : Fields) : Fields := fields.filter (·.1 ≠ key)

/-- Changes the table at the end of a path. Tables on the way that are not
there yet are made; of a list of tables, the last one is on the way. Through
a key with points nothing can be added to a table with a header. -/
def Fields.update (dotted : Bool) (change : Origin → Fields → Option Fields) :
    List String → Origin → Fields → Option Fields
  | [], origin, fields => change origin fields
  | key :: path, _, fields =>
    match fields.find key with
    | none =>
      let origin : Origin := if dotted then .dotted else .implied
      (Fields.update dotted change path origin []).map fun inner =>
        fields.put key (.table origin inner)
    | some (.value _) => none
    | some (.table origin inner) =>
      if dotted && origin = .header then none
      else
        (Fields.update dotted change path origin inner).map fun inner =>
          fields.put key (.table origin inner)
    | some (.tables items) =>
      match items.getLast? with
      | some (.table origin inner) =>
        (Fields.update dotted change path origin inner).map fun inner =>
          fields.put key (.tables (items.dropLast ++ [.table origin inner]))
      | _ => none

/-- Adds one field to a table. -/
def Fields.add (key : String) (t : Tree) (fields : Fields) : Option Fields :=
  match fields.find key with
  | some _ => none
  | none => some (fields ++ [(key, .value t)])

/-- Sets a key, which may have points, to a value. The table that a path
leads to must have come into being through a path. -/
def Fields.assign (path : List String) (key : String) (t : Tree) (fields : Fields) :
    Option Fields :=
  let change (origin : Origin) (inner : Fields) : Option Fields :=
    if path.isEmpty || origin = .dotted then inner.add key t else none
  fields.update true change path .header

/-! ## Documents -/

/-- A document under construction: the tables that are complete, and the one
that lines are being added to. -/
structure Draft where
  root : Fields := []
  path : List String := []
  /-- The current table is an item of a list of tables. -/
  inList : Bool := false
  current : Fields := []

namespace Draft

/-- Puts the current table into its place. -/
def finish (d : Draft) : Option Fields :=
  match d.path.getLast? with
  | none => some d.current
  | some key =>
    let change (_ : Origin) (parent : Fields) : Option Fields :=
      match parent.find key, d.inList with
      | some (.tables items), true =>
        some (parent.put key (.tables (items ++ [.table .header d.current])))
      | none, false => some (parent ++ [(key, .table .header d.current)])
      | _, _ => none
    d.root.update false change d.path.dropLast .header

/-- Begins the table of a header. One that is only implied so far keeps what
it has and moves to the end. -/
def openTable (d : Draft) (parents : List String) (key : String) : Option Draft := do
  let root ← d.finish
  let existing := (root.update false (fun _ parent => some parent) parents .header).bind fun root =>
    some (root, lookIn root parents)
  let (root, parent) ← existing
  match parent.find key with
  | none => return ⟨root, parents ++ [key], false, []⟩
  | some (.table .implied inner) =>
    let root ← root.update false (fun _ parent => some (parent.remove key)) parents .header
    return ⟨root, parents ++ [key], false, inner⟩
  | some _ => none
where
  /-- The table at the end of a path that exists. -/
  lookIn (fields : Fields) : List String → Fields
    | [] => fields
    | key :: path =>
      match fields.find key with
      | some (.table _ inner) => lookIn inner path
      | some (.tables items) =>
        match items.getLast? with
        | some (.table _ inner) => lookIn inner path
        | _ => []
      | _ => []

/-- Begins one more item of a list of tables. -/
def openItem (d : Draft) (parents : List String) (key : String) : Option Draft := do
  let root ← d.finish
  let change (_ : Origin) (parent : Fields) : Option Fields :=
    match parent.find key with
    | none => some (parent ++ [(key, .tables [])])
    | some (.tables _) => some parent
    | some _ => none
  let root ← root.update false change parents .header
  return ⟨root, parents ++ [key], true, []⟩

/-- Sets a key of the current table. -/
def assign (d : Draft) (path : List String) (key : String) (t : Tree) : Option Draft :=
  (d.current.assign path key t).map fun fields => { d with current := fields }

end Draft

end LinkTelemetry.Tree.Toml
