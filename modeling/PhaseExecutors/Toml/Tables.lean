import PhaseExecutors.Value.Basic

/-!
The tables of a TOML document while it is read.

A table may be defined once. A table that is only named on the way to another one is implicit and
may still get a header of its own; a table named by dotted keys may only be extended by dotted
keys.
-/

namespace PhaseExecutors.Toml

inductive Item
  | value (v : Value)
  | table (implicit dotted : Bool) (entries : List (String × Item))
  /-- The rows of an array of tables, each by its entries. -/
  | rows (tables : List (List (String × Item)))

structure Table where
  implicit : Bool := false
  dotted : Bool := false
  entries : List (String × Item) := []

namespace Table

def toItem (t : Table) : Item := .table t.implicit t.dotted t.entries

def get? (t : Table) (key : String) : Option Item := (t.entries.find? (·.1 = key)).map Prod.snd

/-- Replaces the entry of a key, or adds one at the end. -/
def put (t : Table) (key : String) (item : Item) : Table :=
  if t.entries.any (·.1 = key) then
    { t with entries := t.entries.map fun e => if e.1 = key then (key, item) else e }
  else { t with entries := t.entries ++ [(key, item)] }

def erase (t : Table) (key : String) : Table :=
  { t with entries := t.entries.filter (·.1 ≠ key) }

end Table

/-- Changes the table at a path and returns what the change found. Tables on the way are made where
they are missing; of an array of tables the last one is entered. With `dotted` the path may not
enter a table that has a header. -/
def changeAt? {α : Type} (dotted : Bool) (path : List String) (change : Table → Option (α × Table))
    (t : Table) : Option (α × Table) :=
  match path with
  | [] => change t
  | key :: path =>
    match t.get? key with
    | none =>
      (changeAt? dotted path change ⟨true, dotted, []⟩).map fun (a, u) => (a, t.put key u.toItem)
    | some (.value _) => none
    | some (.table implicit wasDotted entries) =>
      if dotted && !implicit then none
      else
        (changeAt? dotted path change ⟨implicit, wasDotted, entries⟩).map fun (a, u) =>
          (a, t.put key u.toItem)
    | some (.rows tables) =>
      match tables.getLast? with
      | none => none
      | some entries =>
        (changeAt? dotted path change ⟨false, false, entries⟩).map fun (a, u) =>
          (a, t.put key (.rows (tables.dropLast ++ [u.entries])))

/-- Adds the value of a dotted key. -/
def addPair? (path : List String) (key : String) (v : Value) (t : Table) : Option Table :=
  let add (t : Table) : Option (Unit × Table) :=
    if t.dotted == path.isEmpty then none
    else if (t.get? key).isSome then none
    else some ((), t.put key (.value v))
  (changeAt? true path add t).map Prod.snd

mutual

def Item.toValue : Item → Value
  | .value v => v
  | .table _ _ entries => .table (entriesToValues entries)
  | .rows tables => .array (rowsToValues tables)

def entriesToValues : List (String × Item) → List (String × Value)
  | [] => []
  | (key, item) :: rest => (key, item.toValue) :: entriesToValues rest

def rowsToValues : List (List (String × Item)) → List Value
  | [] => []
  | entries :: rest => .table (entriesToValues entries) :: rowsToValues rest

end

def Table.toValue (t : Table) : Value := .table (entriesToValues t.entries)

/-! ### Headers -/

/-- The document so far, and the table that the last header opened. -/
structure Builder where
  root : Table := {}
  current : Table := {}
  path : List String := []
  isRow : Bool := false

namespace Builder

def addPair? (b : Builder) (path : List String) (key : String) (v : Value) : Option Builder :=
  (Toml.addPair? path key v b.current).map fun t => { b with current := t }

/-- Puts the table of the last header into its parent. -/
def store? (b : Builder) (key : String) (parent : Table) : Option (Unit × Table) :=
  match b.isRow, parent.get? key with
  | true, none => some ((), parent.put key (.rows [b.current.entries]))
  | true, some (.rows tables) => some ((), parent.put key (.rows (tables ++ [b.current.entries])))
  | true, some _ => none
  | false, none => some ((), parent.put key b.current.toItem)
  | false, some (.table true _ _) => some ((), parent.put key b.current.toItem)
  | false, some _ => none

/-- Puts the table of the last header into the document. -/
def close? (b : Builder) : Option Builder :=
  match b.path.getLast? with
  | none => some { root := b.current }
  | some key =>
    (changeAt? false b.path.dropLast (b.store? key) b.root).map fun (_, root) => { root }

/-- Takes a table out of its parent before it gets its header, and returns the entries it had. A
table that has a header, or is named by dotted keys, may not get one. -/
def take? (key : String) (parent : Table) : Option (List (String × Item) × Table) :=
  match parent.get? key with
  | none => some ([], parent)
  | some (.table true false entries) => some (entries, parent.erase key)
  | some _ => none

/-- Opens the table of a header. -/
def openTable? (b : Builder) (path : List String) : Option Builder := do
  let b ← b.close?
  let key ← path.getLast?
  let (entries, root) ← changeAt? false path.dropLast (take? key) b.root
  return { root, current := { entries }, path }

/-- Makes room for a row of an array of tables. -/
def reserveRow? (key : String) (parent : Table) : Option (Unit × Table) :=
  match parent.get? key with
  | none => some ((), parent.put key (.rows []))
  | some (.rows _) => some ((), parent)
  | some _ => none

/-- Opens a new row of an array of tables. -/
def openRow? (b : Builder) (path : List String) : Option Builder := do
  let b ← b.close?
  let key ← path.getLast?
  let (_, root) ← changeAt? false path.dropLast (reserveRow? key) b.root
  return { root, path, isRow := true }

end Builder

end PhaseExecutors.Toml
