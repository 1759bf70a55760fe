-- The answer of an injected program: the data that a function gave, or the
-- error that it returned, or the table of the symbols that can be run. All
-- three may be missing. Unknown members do not count.
import Graft.Json
import Graft.Version

namespace Graft

/-- An answer. -/
structure Envelope where
  data : Option String
  error : Option String
  /-- The symbols with their types, in the order of their names. -/
  symbols : Option (List (String × String))
  deriving DecidableEq, Repr

namespace Envelope

def empty : Envelope := ⟨none, none, none⟩

def text? : Json → Option (Option String)
  | .null => some none
  | .string (some s) => some (some s)
  | _ => none

/-- `a` stands before `b`, by code points. -/
def nameBefore (a b : String) : Bool := Version.compareChars a.toList b.toList == .lt

/-- The table with this symbol in its place by name; a symbol that was there is
replaced. -/
def insertSymbol (name type : String) : List (String × String) → List (String × String)
  | [] => [(name, type)]
  | e :: es =>
    if e.1 == name then (name, type) :: es
    else if nameBefore name e.1 then (name, type) :: e :: es
    else e :: insertSymbol name type es

def symbolTable? : List (Option String × Json) → List (String × String) →
    Option (List (String × String))
  | [], table => some table
  | (some name, .string (some type)) :: ms, table => symbolTable? ms (insertSymbol name type table)
  | _, _ => none

/-- A symbol table or nothing. -/
def symbols? : Json → Option (Option (List (String × String)))
  | .null => some none
  | .object ms => (symbolTable? ms []).map some
  | _ => none

/-- The members that were seen. -/
structure Seen where
  data : Bool
  error : Bool
  symbols : Bool

/-- The answer with one more member. A member is given at most once. -/
def member? (e : Envelope) (seen : Seen) (key : String) (v : Json) : Option (Envelope × Seen) :=
  if key == "data" then
    if seen.data then none
    else (text? v).map fun d => ({ e with data := d }, { seen with data := true })
  else if key == "error" then
    if seen.error then none
    else (text? v).map fun m => ({ e with error := m }, { seen with error := true })
  else if key == "symbols" then
    if seen.symbols then none
    else (symbols? v).map fun t => ({ e with symbols := t }, { seen with symbols := true })
  else some (e, seen)

/-- The answer that members make. -/
def ofMembers? (e : Envelope) (seen : Seen) : List (Option String × Json) → Option Envelope
  | [] => some e
  | (some key, v) :: ms =>
    match member? e seen key v with
    | some (e', seen') => ofMembers? e' seen' ms
    | none => none
  | (none, _) :: _ => none

/-- The answer that a value stands for: an object, or an array of the members in their
order. -/
def ofJson? : Json → Option Envelope
  | .object ms => ofMembers? empty ⟨false, false, false⟩ ms
  | .array [] => some empty
  | .array [d] => (text? d).map fun data => ⟨data, none, none⟩
  | .array [d, m] => do
    let data ← text? d
    let error ← text? m
    return ⟨data, error, none⟩
  | .array [d, m, t] => do
    let data ← text? d
    let error ← text? m
    let symbols ← symbols? t
    return ⟨data, error, symbols⟩
  | _ => none

/-- Reads the text of an answer. -/
def parse (text : String) : Option Envelope := (Json.parse text.toList).bind ofJson?

end Envelope
end Graft
