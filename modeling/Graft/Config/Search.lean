-- Searching for the settings of a project. The directories from the start
-- upwards are searched, at most ten, and the first settings that can be read
-- count. Settings that cannot be read are reported and passed over.
import Graft.Config
import Graft.World

namespace Graft.Config

/-- How many directories are searched. -/
def searchDepth : Nat := 10

variable {ε : Type}

/-- The settings in one file, if it has any. -/
def readFile? (path : String) : Act ε (Option Config) := do
  let v ← Act.view
  match v.readText path with
  | .error .notFound => pure none
  | .error fault => do
    Act.warn ("Failed to read config file " ++ path ++ ": " ++ fault.message)
    pure none
  | .ok text =>
    match parse text with
    | some c => pure (some c)
    | none => do
      let h ← read
      Act.warn ("Failed to parse " ++ fileName ++ ": " ++ h.settingsFault text ++
        ". Using defaults.")
      pure none

/-- The first settings among the directories. -/
def firstIn : List String → Act ε (Option Config)
  | [] => pure none
  | dir :: dirs => do
    match ← readFile? (Path.join dir fileName) with
    | some c => pure (some c)
    | none => firstIn dirs

/-- The settings with the build tool that the environment names. -/
def overridden (c : Config) : Act ε Config := do
  return c.withBinary (← get).goBinary

/-- The settings that count in a directory. -/
def search (start : String) : Act ε Config := do
  let found ← firstIn (Path.ancestors searchDepth start)
  overridden (found.getD default)

/-- The settings that count in the working directory. -/
def searchHere : Act ε Config := do
  let v ← Act.view
  search v.cwd.path

end Graft.Config
