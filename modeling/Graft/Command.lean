-- The commands. A command finds its project, does its task there and tells
-- how it goes. A command that fails tells why.
import Graft.Task

namespace Graft

/-- A command. The project is where the nearest manifest is, if none is named. -/
inductive Command
  | migrate (project : Option String)
  | seed (project : Option String) (seeders : List String)
  | clear (project : Option String)
  | openapi (project : Option String) (output : String)
  | init (force : Bool)
  deriving DecidableEq, Repr

/-- Why a command failed. -/
inductive CommandError
  | failure (e : Failure)
  | configExists
  | unwritable (what path : String) (fault : Files.Fault)
  deriving DecidableEq, Repr

namespace CommandError

def message : CommandError → String
  | failure e => e.message
  | configExists => "Configuration file already exists. Use --force to overwrite."
  | unwritable what path _ => "Failed to write " ++ what ++ path

def cause : CommandError → Option String
  | failure e => e.cause
  | configExists => none
  | unwritable _ _ fault => some fault.message

def report (e : CommandError) : String := Failure.chained e.message e.cause

end CommandError

namespace Command

/-- Tells the user something. -/
def tell (line : String) : Act CommandError Unit := Act.record (.told line)

def projectDirectory (project : Option String) : Act CommandError String :=
  match project with
  | some directory => pure directory
  | none => do
    let v ← Act.view
    match Manifest.nearest v v.cwd.path with
    | some directory => pure directory
    | none => Act.fail (.failure (.manifest .noManifest))

/-- Takes a step with a bound symbol, and drops its artifact afterwards, whether the step
fails or not. -/
def holding {α : Type} (f : BoundSymbol) (a : Act CommandError α) : Act CommandError α := do
  let r ← Act.attempt a
  f.artifact.drop
  Act.ofExcept r

def runTask (project : Option String) (t : Task) (doing done : String) : Act CommandError Unit := do
  let directory ← projectDirectory project
  let f ← Act.mapError .failure (Task.bind directory t)
  holding f do
    tell doing
    let _ ← Act.mapError .failure (Task.invoke f)
    tell done

/-- Describes the routes in a file. -/
def describe (project : Option String) (output : String) : Act CommandError Unit := do
  let directory ← projectDirectory project
  let f ← Act.mapError .failure (Task.bind directory .openapi)
  holding f do
    let bytes ← Act.mapError .failure (Task.invoke f)
    tell "✏️ Writing output file"
    let path := Path.join directory output
    Act.mapError (.unwritable "OpenAPI specification to: " path) (Act.writeFile path bytes)
    tell "✅ OpenAPI 3 specification generated!"

/-- The settings that a new configuration file states. -/
def initialConfig : String :=
  "# gyv configuration\n\n[go]\n" ++
  "# Go binary, looked up in PATH. GYV_GO_BIN overrides it.\n" ++
  "binary = \"go\"\nldflags = \"-w -s\"\n\n" ++
  "[paths]\nmodels = \"database/model\"\nseeders = \"database/seeder\"\n"

/-- Writes a configuration file into a directory. One that exists stays, unless the
command is forced. -/
def initIn (directory : String) (force : Bool) : Act CommandError Unit := do
  let path := Path.join directory Config.fileName
  let v ← Act.view
  if v.exists? path && !force then Act.fail .configExists
  Act.mapError (.unwritable "" path) (Act.writeFile path (Files.View.encode initialConfig))
  tell ("Created " ++ Config.fileName ++ " configuration file")

def run : Command → Act CommandError Unit
  | migrate project =>
    runTask project .migrate "💾 Running migrations..." "✅ Database migrated!"
  | seed project seeders =>
    runTask project (.seed seeders) "💾 Running seeders..." "✅ Database seeded!"
  | clear project => runTask project .clear "🗑️ Clearing database..." "✅ Database cleared!"
  | openapi project output => describe project output
  | init force => do
    let v ← Act.view
    initIn v.cwd.path force

end Command
end Graft
