-- References to a function of the project: a name, a name of another
-- package, or a call of one of those without arguments. A reference carries
-- the import that provides its package, so that it can be written into
-- another file.
import Graft.Go.Expr
import Graft.Go.Import

namespace Graft

/-! ## Imports by name -/

/-- The name that the first import of the path gives to it. -/
def aliasOf (imports : List Go.Import) (path : String) : Option String :=
  (imports.find? fun i => i.path == path).bind fun i => i.name

/-- The path ends with the letters of the name. -/
def endsWith (path name : String) : Bool := name.toList.isSuffixOf path.toList

/-- The import that provides `name`: the first that gives this name, or else the first
without a name of its own whose path ends with it. -/
def providerOf (imports : List Go.Import) (name : String) : Option Go.Import :=
  match imports.find? fun i => i.name == some name with
  | some i => some i
  | none => imports.find? fun i => i.name.isNone && endsWith i.path name

/-- An import as it stands in a file; nothing if there is none. -/
def importText : Option Go.Import → String
  | some i => i.display
  | none => ""

/-! ## References -/

/-- A function of the project, and the import that its package needs. -/
structure Reference where
  value : String
  package : Option Go.Import
  deriving DecidableEq, Repr

namespace Reference

/-- The reference to a name, or to a name selected from a name. -/
def ofName? (imports : List Go.Import) : Go.Expr → Option Reference
  | .ident name => some ⟨name, none⟩
  | .selector (.ident base) field => some ⟨base ++ "." ++ field, providerOf imports base⟩
  | _ => none

/-- The reference that an expression can be written as. -/
def ofExpr? (imports : List Go.Import) : Go.Expr → Option Reference
  | .call callee [] =>
    (ofName? imports callee).map fun r => { r with value := r.value ++ "()" }
  | e => ofName? imports e

end Reference
end Graft
