-- The program. It reads the tree of files that a command can see, answers
-- the command line in that tree, and writes back what was changed. It runs
-- no other program: the build tool counts as not installed.
import Graft.Command.Line

namespace Graft.Main

/-- The files whose contents a command reads. -/
def isRead (name : String) : Bool :=
  name == Manifest.fileName || name == Config.fileName || Path.extension? name == some "go"

/-- The place that an absolute path is written for. -/
def placeOf (path : String) : Files.Place := Path.parts path

/-- The tree with an entry that was found on the disk, and the directories on the way. -/
def enter (store : Files.Store) (path : String) (e : Files.Entry) : Files.Store :=
  (store.makeWay (placeOf path)).put (placeOf path) e

/-- Enters a file, with its contents if a command reads it. -/
def enterFile (path name : String) (store : Files.Store) : IO Files.Store := do
  let bytes ← if isRead name then IO.FS.readBinFile path else pure ByteArray.empty
  return enter store path (.file bytes.toList false)

/-- Enters a directory and all below it, at most so many levels deep. -/
def enterTree : Nat → String → Files.Store → IO Files.Store
  | 0, _, store => return store
  | n + 1, path, store => do
    let mut store := enter store path .directory
    for entry in ← ((← IO.currentDir) / path).readDir do
      let below := Path.join path entry.fileName
      if ← entry.path.isDir then store ← enterTree n below store
      else if ← entry.path.pathExists then store ← enterFile below entry.fileName store
    return store

/-- Enters what a command looks for in a directory above the project. -/
def enterMarks (store : Files.Store) (directory : String) : IO Files.Store := do
  let mut store := store
  for name in [Manifest.fileName, Config.fileName] do
    let path := Path.join directory name
    if ← ((← IO.currentDir) / path).pathExists then store ← enterFile path name store
  return store

/-- How deep a project is read. -/
def depth : Nat := 64

/-- The tree that a command sees: the working directory, the project that is named or else
the nearest one, and the marks in the directories above. -/
def visibleTree (cwd : String) (project : Option String) : IO Files.Store := do
  let above := Path.ancestors (cwd.length + 1) cwd
  let mut store := Files.Store.empty
  for directory in above do store ← enterMarks store directory
  let found := project.or (Manifest.nearest ⟨store, placeOf cwd⟩ cwd)
  let root := Path.join cwd (found.getD ".")
  for directory in Path.ancestors (root.length + 1) root do store ← enterMarks store directory
  store := enter store cwd .directory
  if ← ((← IO.currentDir) / root).isDir then enterTree depth root store else return store

def named : Command.Request → Option String
  | .run (.migrate project) => project
  | .run (.seed project _) => project
  | .run (.clear project) => project
  | .run (.openapi project _) => project
  | _ => none

/-- Writes back the files that are new or changed. -/
def writeBack (before after : Files.Store) : IO Unit := do
  for (place, entry) in after.entries do
    match entry with
    | .file bytes _ =>
      if before.at? place != some entry then
        IO.FS.writeBinFile (Files.Place.path place) ⟨bytes.toArray⟩
    | _ => pure ()

/-- The host: no program is there, and the disk refuses nothing beforehand. -/
def host (tempDir : String) (second : Nat) : Host where
  tempDir := tempDir
  searchPath := []
  process := 1
  second := fun _ => second
  launch := fun _ _ _ => .error .notFound
  refusesWrite := fun _ _ => none
  refusesRemoval := fun _ _ => none
  answerFault := fun _ => ""
  settingsFault := fun _ => ""

end Graft.Main

/-- Answers the command line. -/
def main (args : List String) : IO UInt32 := do
  let request := Graft.Command.Request.ofLine (← IO.getEnv "GYV_PROJECT_PATH") args
  let cwd := (← IO.currentDir).toString
  let store ← Graft.Main.visibleTree cwd (Graft.Main.named request)
  let world : Graft.World :=
    { store, cwd := Graft.Main.placeOf cwd, goBinary := ← IO.getEnv "GYV_GO_BIN"
      context := Graft.Context.empty, drawn := 0, journal := [] }
  let second := (← IO.monoMsNow) / 1000
  let tempDir := (← IO.getEnv "TMPDIR").getD "/tmp"
  let (answer, after) := request.answer (Graft.Main.host tempDir second) world
  Graft.Main.writeBack store after.store
  IO.print answer.told
  match answer.complaint with
  | some text => IO.eprint text
  | none => pure ()
  return answer.code.toUInt32
