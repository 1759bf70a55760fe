-- Finding what an injection refers to: the function that registers the
-- routes, which is the argument of the framework's start call, and the
-- seeders of a package.
import Graft.Reference
import Graft.Scan
import Graft.Seeder
import Graft.World

namespace Graft.Resolve

/-- Why nothing was found. -/
inductive Error
  | scan (e : Scan.Error)
  | noStartCall (directory : String)
  | unsupported (file : String) (line : Nat) (expression : String)
  | noSeeder (directory : String)
  | unknownSeeder (u : Seeder.Unknown)
  deriving DecidableEq, Repr

def Error.message : Error → String
  | .scan e => e.message
  | .noStartCall directory =>
    "Could not find any valid call of \"goyave.Start()\" in " ++ directory
  | .unsupported file line expression =>
    "Unsupported route registrer \"" ++ expression ++ "\" in " ++ file ++ ":" ++ toString line ++
      ": expected an identifier, a qualified identifier or a call without arguments"
  | .noSeeder directory => "No seeder function found in " ++ directory
  | .unknownSeeder u => u.message

/-- The message of the error below this one, if one is reported on its own. -/
def Error.cause : Error → Option String
  | .scan e => e.cause
  | _ => none

/-! ## The start call -/

/-- The name of the framework's package where an import gives it none. -/
def frameworkName : String := "goyave"

/-- The function that starts a project. -/
def startName : String := "Start"

/-- The call starts the framework that is imported from the path. -/
def startsFramework (importPath : String) : Scan.Question := fun imports base name args =>
  name == startName && args.length == 1 &&
    base.ident? == some ((aliasOf imports importPath).getD frameworkName)

/-- The reference that the argument of a start call makes. -/
def ofSite (site : Scan.Site) : Except Error Reference :=
  match site.args with
  | arg :: _ =>
    match Reference.ofExpr? site.imports arg with
    | some r => .ok r
    | none => .error (.unsupported site.path site.line arg.display)
  | [] => .error (.unsupported site.path site.line "")

/-- Where a call stands. -/
def spot (site : Scan.Site) : String := site.path ++ ":" ++ toString site.line

/-- The function that registers the routes of the project in the directory. A second
start call is reported. -/
def routeRegistrer (directory importPath : String) : Act Error Reference := do
  let v ← Act.view
  let sites := Scan.sitesIn (startsFramework importPath)
  let (first, rest) := Scan.Stream.next v sites (.start directory)
  match first with
  | none => Act.fail (.noStartCall directory)
  | some (.error e) => Act.fail (.scan e)
  | some (.ok site) =>
    match (Scan.Stream.next v sites rest).1 with
    | some (.ok other) =>
      Act.warn ("Several goyave.Start() calls found. Using " ++ spot site ++ ", ignoring " ++
        spot other)
    | _ => pure ()
    Act.ofExcept (ofSite site)

/-! ## Seeders -/

/-- The seeders of a package, the default first. -/
def seeders (v : Files.View) (directory : String) : Except Error (List String) :=
  match Scan.collect (Scan.exportedFunctions v directory) with
  | .error e => .error (.scan e)
  | .ok names => if names.isEmpty then .error (.noSeeder directory) else .ok (Seeder.ordered names)

end Graft.Resolve
