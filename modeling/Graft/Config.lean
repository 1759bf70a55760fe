-- The settings of a project: the build tool and its flags, and where the
-- packages of models and seeders stand. Every setting has a default. A table
-- of settings may also be written as an array of its fields in order.
import Graft.Text.Blank
import Graft.Toml.Parser

namespace Graft

structure Config where
  goBinary : String
  ldflags : String
  /-- The packages of models and of seeders, relative to the project. -/
  models : String
  seeders : String
  deriving DecidableEq, Repr

namespace Config

def default : Config := ⟨"go", "-w -s", "database/model", "database/seeder"⟩

def fileName : String := ".gyv.toml"

/-- A pair of texts that a table gives under two keys. -/
def textPair (keys : String × String) (defaults : String × String) (v : Toml.Value) :
    Option (String × String) :=
  let ofTable := fun (es : List (String × Toml.Value)) (key fallback : String) =>
    match es.find? fun e => e.1 == key with
    | none => some fallback
    | some (_, .text s) => some s
    | some _ => none
  match v with
  | .table es => do
    let a ← ofTable es keys.1 defaults.1
    let b ← ofTable es keys.2 defaults.2
    return (a, b)
  | .array [] => some defaults
  | .array [.text a] => some (a, defaults.2)
  | .array (.text a :: .text b :: _) => some (a, b)
  | .date => some defaults
  | _ => none

def ofDocument (es : List (String × Toml.Value)) : Option Config := do
  let section_ := fun (name : String) (keys defaults : String × String) =>
    match es.find? fun e => e.1 == name with
    | none => some defaults
    | some e => textPair keys defaults e.2
  let (goBinary, ldflags) ←
    section_ "go" ("binary", "ldflags") (default.goBinary, default.ldflags)
  let (models, seeders) ← section_ "paths" ("models", "seeders") (default.models, default.seeders)
  return ⟨goBinary, ldflags, models, seeders⟩

/-- Reads the contents of a configuration file. -/
def parse (contents : String) : Option Config := (Toml.parse contents).bind ofDocument

/-- The settings with the build tool that the environment names, if it names one. -/
def withBinary (binary : Option String) (c : Config) : Config :=
  match binary with
  | some b => if b.isEmpty then c else { c with goBinary := b }
  | none => c

end Config

/-! ## Import paths of packages -/

/-- The text without the steps `./` in front of it. -/
def dropDotSteps : List Char → List Char
  | '.' :: '/' :: cs => dropDotSteps cs
  | cs => cs

/-- The import path of the package that stands at `relative` in a module. -/
def packageImportPath (module relative : String) : String :=
  let inside := dropDotSteps (Text.trimEnds (· == '/') relative.toList)
  if inside.isEmpty then module else module ++ "/" ++ String.ofList inside

end Graft
