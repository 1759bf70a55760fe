-- Stubs: source texts with holes, which are templates. What is given to a
-- stub is a map of names to values, and a value is a text or a list of texts.
import Graft.Text.Quoted

namespace Graft.Stub

/-! ## Parameters -/

/-- The name under which something is given to a stub. -/
structure Param where
  key : String
  deriving DecidableEq, Repr

namespace Param

def packageName : Param := ⟨"PackageName"⟩

def name : Param := ⟨"Name"⟩

def goyaveImportPath : Param := ⟨"GoyaveImportPath"⟩

def modelImportPath : Param := ⟨"ModelImportPath"⟩

def seederImportPath : Param := ⟨"SeederImportPath"⟩

def seederPackage : Param := ⟨"SeederPackage"⟩

def seeders : Param := ⟨"Seeders"⟩

def routeRegistrer : Param := ⟨"RouteRegistrer"⟩

def routeRegistrerImport : Param := ⟨"RouteRegistrerImport"⟩

def symbolEnv : Param := ⟨"SymbolEnv"⟩

def resultEnv : Param := ⟨"ResultEnv"⟩

def listSymbol : Param := ⟨"ListSymbol"⟩

end Param

/-- The value of a parameter: a text or a list of texts. -/
inductive Value
  | text (s : String)
  | list (ss : List String)
  deriving DecidableEq, Repr

namespace Value

/-- What stands in a hole. A list is shown in brackets with its texts quoted. -/
def shown : Value → String
  | text s => s
  | list ss => "[" ++ ", ".intercalate (ss.map Text.quoted) ++ "]"

def isSet : Value → Bool
  | text s => !s.isEmpty
  | list ss => !ss.isEmpty

/-- The entries of the value; those of a text are its characters. -/
def entries : Value → List String
  | text s => s.toList.map fun c => String.ofList [c]
  | list ss => ss

end Value

/-- The values given to a stub. -/
abbrev Data := List (Param × Value)

/-- The value given to a parameter; the last one counts. -/
def Data.get? (d : Data) (p : Param) : Option Value :=
  (d.reverse.find? fun e => e.1 == p).map fun e => e.2

/-- The values with a text under one more name, which hides the value that it had. -/
def Data.named (d : Data) (p : Param) (s : String) : Data := d ++ [(p, .text s)]

@[simp] theorem Data.get?_named_self (d : Data) (p : Param) (s : String) :
    (d.named p s).get? p = some (.text s) := by
  simp [named, get?]

theorem Data.get?_named_of_ne {d : Data} {p q : Param} (s : String) (h : q ≠ p) :
    (d.named p s).get? q = d.get? q := by
  simp [named, get?, Ne.symm h]

end Graft.Stub
