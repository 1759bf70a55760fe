-- Seeders: the functions of the seeder package that fill the database. The
-- one named `Run` stands first, and it is run when none is asked for.
import Graft.Text.Quoted

namespace Graft.Seeder

def defaultName : String := "Run"

/-- The default seeders first, and the others behind them in their order. -/
def ordered (names : List String) : List String :=
  names.filter (· == defaultName) ++ names.filter (· != defaultName)

/-- A seeder that was asked for and does not exist, and those that do. -/
structure Unknown where
  name : String
  available : List String
  deriving DecidableEq, Repr

def Unknown.message (u : Unknown) : String :=
  "Seeder function " ++ Text.quoted u.name ++ " does not exist (available: " ++
    ", ".intercalate u.available ++ ")"

/-- Every seeder that is asked for must exist; the first that does not is reported. -/
def validate (requested available : List String) : Except Unknown Unit :=
  match requested.find? fun name => !available.contains name with
  | some name => .error ⟨name, available⟩
  | none => .ok ()

/-- What is asked for, or the default seeder if nothing is. -/
def orDefault (requested : List String) : List String :=
  if requested.isEmpty then [defaultName] else requested

end Graft.Seeder
