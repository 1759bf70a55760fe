-- The values of a configuration document, and how its tables come about. A
-- table is made by a header, by the headers of tables inside it, or by
-- dotted keys; each way allows other additions. A key is given once.
namespace Graft.Toml

/-- A value. Of numbers, truth values and dates only the sort is kept. -/
inductive Value
  | text (s : String)
  | number
  | truth
  | date
  | array (vs : List Value)
  | table (entries : List (String × Value))
  deriving Repr

/-- How a table came about. -/
inductive Origin
  /-- By a header of its own. -/
  | header
  /-- By the header of a table inside it. -/
  | inner
  /-- By dotted keys. -/
  | dotted
  deriving DecidableEq, Repr

/-- A table under construction. -/
inductive Node
  | value (v : Value)
  | table (origin : Origin) (entries : List (String × Node))
  /-- Tables under one header; the last one is open. -/
  | tables (elements : List (List (String × Node)))
  deriving Repr

/-- The entries of a table under construction. -/
abbrev Entries := List (String × Node)

def lookup (key : String) (es : Entries) : Option Node :=
  (es.find? fun e => e.1 == key).map fun e => e.2

/-- The entries with this one in its place, or at the end. -/
def store (key : String) (n : Node) : Entries → Entries
  | [] => [(key, n)]
  | e :: es => if e.1 == key then (key, n) :: es else e :: store key n es

/-- Changes the last element. -/
def changeLast {α : Type} (f : α → Option α) : List α → Option (List α)
  | [] => none
  | [x] => (f x).map fun y => [y]
  | x :: xs => (changeLast f xs).map fun ys => x :: ys

/-- The table may be entered by a dotted key. -/
def Origin.openToDots : Origin → Bool
  | .header => false
  | _ => true

/-- Follows the keys down through tables, makes those that are missing, and changes the
last one; `f` sees whether that table was made by dotted keys. -/
def descend (dots : Bool) (f : Bool → Entries → Option Entries) :
    List String → Bool → Entries → Option Entries
  | [], isDotted, es => f isDotted es
  | key :: keys, _, es =>
    let changed : Option Node :=
      match lookup key es with
      | none =>
        (descend dots f keys dots []).map (Node.table (if dots then .dotted else .inner))
      | some (.value _) => none
      | some (.table origin inside) =>
        if dots && !origin.openToDots then none
        else (descend dots f keys (origin == .dotted) inside).map (Node.table origin)
      | some (.tables elements) =>
        (changeLast (descend dots f keys false) elements).map Node.tables
    changed.map fun n => store key n es

/-- Gives a value to a key below a table. A key without dots belongs to a table that was
not made by dots, and a dotted key only to one that was. -/
def assign (path : List String) (key : String) (v : Value) (es : Entries) : Option Entries :=
  descend true
    (fun isDotted inside =>
      if isDotted == path.isEmpty || (lookup key inside).isSome then none
      else some (store key (.value v) inside))
    path false es

def openTable (path : List String) (key : String) (es : Entries) : Option Entries :=
  descend false
    (fun _ inside =>
      match lookup key inside with
      | none => some (store key (.table .header []) inside)
      | some (.table .inner old) => some (store key (.table .header old) inside)
      | some _ => none)
    path false es

/-- Adds a table to those under one header. -/
def addTable (path : List String) (key : String) (es : Entries) : Option Entries :=
  descend false
    (fun _ inside =>
      match lookup key inside with
      | none => some (store key (.tables [[]]) inside)
      | some (.tables old) => some (store key (.tables (old ++ [[]])) inside)
      | some _ => none)
    path false es

/-- Changes the table that the last header opened. -/
def within (path : List String) (f : Entries → Option Entries) (es : Entries) : Option Entries :=
  match path with
  | [] => f es
  | _ => descend false (fun _ inside => f inside) path false es

mutual
def Node.close : Node → Value
  | .value v => v
  | .table _ es => .table (closeEntries es)
  | .tables elements => .array (closeTables elements)

def closeEntries : List (String × Node) → List (String × Value)
  | [] => []
  | (key, n) :: es => (key, n.close) :: closeEntries es

def closeTables : List (List (String × Node)) → List Value
  | [] => []
  | es :: more => .table (closeEntries es) :: closeTables more
end

end Graft.Toml
