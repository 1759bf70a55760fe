-- The build tool as a program. It is looked up, run in the directory of the
-- project, and a run that fails reports all that the program complained
-- about.
import Graft.Text.Lossy
import Graft.World

namespace Graft

/-- Why the build tool did not do its work. -/
inductive BuildError
  | notFound (program : String)
  | notRun (program : String) (fault : Files.Fault)
  | failed (command : String) (exit : Exit) (complaint : String)
  deriving DecidableEq, Repr

namespace BuildError

/-- Why a program is not found. -/
def lookupFault : String := "cannot find binary path"

def message : BuildError → String
  | .notFound program => program ++ " not found: " ++ lookupFault
  | .notRun program fault => "Could not run " ++ program ++ ": " ++ fault.message
  | .failed command exit complaint =>
    "\"" ++ command ++ "\" failed (" ++ exit.message ++ ")\n" ++ complaint

/-- The message of the error below this one, if one is reported on its own. -/
def cause : BuildError → Option String
  | .notFound _ => some lookupFault
  | .notRun _ fault => some fault.message
  | .failed _ _ _ => none

end BuildError

/-- A build tool: what it does when something is asked of it in a directory. -/
structure BuildTool where
  ask : String → ToolCall → Act BuildError Unit

/-- The program that builds a project, and the flags for its linker. -/
structure Toolchain where
  binary : String
  ldflags : String
  deriving DecidableEq, Repr

namespace Toolchain

/-! ## Finding the program -/

/-- The path leads to a file that can be run. -/
def canRun (v : Files.View) (path : String) : Bool :=
  match v.find path with
  | .ok (.file _ executable) => executable
  | _ => false

/-- The program that a name stands for: a path leads to it, or a directory of the search
path holds it. -/
def findProgram (searchPath : List String) (v : Files.View) (name : String) : Option String :=
  if name.isEmpty then none
  else if name.toList.contains '/' then
    let path := Path.join (Files.Place.path v.cwd) name
    if canRun v path then some path else none
  else (searchPath.map fun dir => Path.join dir name).find? (canRun v)

/-! ## What the tool complained about -/

/-- The lines of a byte stream, each with its end. -/
def streamLines : List UInt8 → List (List UInt8)
  | [] => []
  | b :: bs =>
    if b = 10 then [b] :: streamLines bs
    else
      match streamLines bs with
      | [] => [[b]]
      | line :: more => (b :: line) :: more

/-- A line as it is kept: it ends in a line feed. -/
def keptLine (line : List UInt8) : List Char :=
  let cs := Text.decodeLossy line
  (if cs.getLast? = some '\n' then cs.dropLast else cs) ++ ['\n']

def kept (stream : List UInt8) : String :=
  String.ofList ((streamLines stream).flatMap keptLine)

/-! ## Running -/

/-- Words with blanks between them. -/
def spaced : List String → String
  | [] => ""
  | [w] => w
  | w :: ws => w ++ " " ++ spaced ws

/-- The arguments that ask the program for something. -/
def arguments (t : Toolchain) : ToolCall → List String
  | .get d => ["get", d.text]
  | .build output =>
    ["build"] ++ (if t.ldflags.isEmpty then [] else ["-ldflags", t.ldflags]) ++ ["-o", output]
  | .tidy => ["mod", "tidy"]

def run (t : Toolchain) (directory : String) (arguments : List String) : Act BuildError Unit := do
  let h ← read
  let v ← Act.view
  match findProgram h.searchPath v t.binary with
  | none => Act.fail (.notFound t.binary)
  | some program =>
    let outcome ← Act.mapError (BuildError.notRun program)
      (Act.launch ⟨program, arguments, directory, []⟩)
    if outcome.exit.isSuccess then pure ()
    else
      Act.fail (.failed (t.binary ++ " " ++ spaced arguments) outcome.exit
        (kept outcome.complaint))

def tool (t : Toolchain) : BuildTool := ⟨fun directory c => t.run directory (t.arguments c)⟩

end Toolchain
end Graft
