-- Injecting code into a project: a stub is filled and written into the root
-- package, the project is built with it, and the artifact is loaded. The
-- injected file is removed again whatever the build came to, and the manifest
-- is tidied if a dependency was to be added. What goes wrong while cleaning
-- up is only reported.
import Graft.Project

namespace Graft

/-- What is injected: a category of stubs, the values for the stub besides the common
ones, and the modules that its code imports. -/
structure Plan where
  category : String
  data : Stub.Data
  dependencies : List Dependency
  deriving DecidableEq, Repr

namespace Injection

/-! ## Before anything is written -/

/-- The package that a project must have at its root. -/
def rootPackage : String := "main"

/-- The package at the root of the project is the main one, or none is stated. -/
def checkRoot (v : Files.View) (p : Project) : Except Failure Unit :=
  match Scan.packageName v p.directory with
  | .error e => .error (.scan e)
  | .ok none => .ok ()
  | .ok (some found) =>
    if found == rootPackage then .ok () else .error (.notMain p.directory found)

/-- The values that every injected stub gets. -/
def commonData (p : Project) : Stub.Data :=
  [(.goyaveImportPath, .text p.framework.importPath),
   (.symbolEnv, .text Artifact.symbolVariable),
   (.resultEnv, .text Artifact.resultVariable),
   (.listSymbol, .text Artifact.tableSymbol)]

/-- The source text that a plan stands for in a project. -/
def source (p : Project) (plan : Plan) : Except Failure String := do
  let name ← (Stub.select plan.category p.framework.version).mapError .stub
  (Stub.render name (commonData p ++ plan.data)).mapError .stub

def fileName (s : Suffix) : String := "zz_gyv_codeinject-" ++ s.text ++ ".go"

def filePath (p : Project) (s : Suffix) : String := Path.join p.directory (fileName s)

def artifactName (s : Suffix) : String := "gyv-code-injection-" ++ s.text

def artifactPath (tempDir : String) (s : Suffix) : String :=
  Path.join tempDir (artifactName s)

/-- `a` comes behind `b` in the order of names. -/
def sortsAfter (a b : String) : Bool := !Files.Store.nameLe a b

/-- The files that come behind the injected one. Their initialisers run after the
injected code. -/
def later (file : String) (paths : List String) : List String :=
  paths.filter fun path =>
    match Path.fileName? path with
    | some name => sortsAfter name file
    | none => false

/-- Reports each file that comes behind the injected one. -/
def warnLater : List String → Act Failure Unit
  | [] => pure ()
  | path :: more => do
    Act.warn (path ++
      " sorts after the injected file, its init() runs after the injected symbol")
    warnLater more

/-! ## The injected file -/

/-- Writes the injected file, which must not exist. A part of it is removed again. -/
def writeFile (path text : String) : Act Failure Unit := do
  match ← Act.attempt (Act.createFile path (Files.View.encode text)) with
  | .error fault => Act.fail (.temporaryFile path fault)
  | .ok .whole => pure ()
  | .ok (.partly fault) =>
    Act.removeOrWarn "Could not delete partial file " path
    Act.fail (.temporaryFile path fault)

/-! ## Building -/

/-- Asks the build tool for something. -/
def ask (tool : BuildTool) (directory : String) (c : ToolCall) : Act Failure Unit := do
  Act.record (.asked c)
  Act.mapError .build (tool.ask directory c)

/-- The dependencies that the manifest does not require. -/
def missing (m : Manifest) (ds : List Dependency) : List Dependency :=
  ds.filter fun d => (m.findRequire? d.path).isNone

/-- Adds dependencies, up to the first that cannot be added. -/
def addAll (tool : BuildTool) (directory : String) : List Dependency → Act Failure Unit
  | [] => pure ()
  | d :: ds => do
    Act.info ("Adding dependency " ++ d.text)
    ask tool directory (.get d)
    addAll tool directory ds

def build (tool : BuildTool) (p : Project) (dependencies : List Dependency) (artifact : String) :
    Act Failure Unit := do
  addAll tool p.directory dependencies
  Act.advance .dependenciesEnsured
  Act.info ("Building " ++ p.directory)
  ask tool p.directory (.build artifact)
  Act.advance .built

/-- Removes the injected file, and tidies the manifest if a dependency was to be
added. -/
def cleanUp (tool : BuildTool) (p : Project) (file : String) (tidy : Bool) :
    Act Failure Unit := do
  Act.removeOrWarn "Could not delete temporary file " file
  if tidy then
    match ← Act.attempt (ask tool p.directory .tidy) with
    | .ok () => pure ()
    | .error e => Act.warn ("Could not tidy dependencies: " ++ e.message)

/-- Removes what a failed build left behind. -/
def removeStray (artifact : String) : Act Failure Unit := do
  let v ← Act.view
  if v.exists? artifact then Act.removeOrWarn "Could not delete " artifact

/-- Builds the project with the injected file in place, cleans up, and loads the
artifact. -/
def buildAndLoad (tool : BuildTool) (p : Project) (plan : Plan) (file artifact : String) :
    Act Failure Artifact := do
  let dependencies := missing p.manifest plan.dependencies
  let built ← Act.attempt (build tool p dependencies artifact)
  Act.advance .cleanup
  cleanUp tool p file (!dependencies.isEmpty)
  match built with
  | .error e => do
    removeStray artifact
    Act.fail e
  | .ok () => do
    let loaded ← Act.mapError .symbol (Artifact.load artifact p.directory)
    Act.advance .loaded
    return loaded

/-- Checks the project, fills the stub and writes the injected file. Gives what the file
and its artifact are named with. -/
def prepare (p : Project) (plan : Plan) : Act Failure Suffix := do
  let v ← Act.view
  Act.ofExcept (checkRoot v p)
  let text ← Act.ofExcept (source p plan)
  Act.advance .templateRendered
  let suffix ← Act.drawSuffix
  let u ← Act.view
  let paths ← Act.ofExcept ((Scan.sourceFiles u p.directory).mapError .scan)
  warnLater (later (fileName suffix) paths)
  writeFile (filePath p suffix) text
  Act.advance .tempFileWritten
  return suffix

def inject (tool : BuildTool) (p : Project) (plan : Plan) : Act Failure Artifact :=
  Act.within (Context.onProject p.directory) do
    let h ← read
    let suffix ← prepare p plan
    buildAndLoad tool p plan (filePath p suffix) (artifactPath h.tempDir suffix)

/-- Injects a plan into a project and binds a symbol of it. -/
def injectSymbol (tool : BuildTool) (p : Project) (plan : Plan) (symbol : String)
    (signature : Signature) : Act Failure BoundSymbol := do
  let artifact ← inject tool p plan
  Act.within (Context.onSymbol symbol) do
    let f ← Act.mapError .symbol (artifact.bind symbol signature)
    Act.advance .symbolResolved
    return f

end Injection
end Graft
