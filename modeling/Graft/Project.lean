-- A project that code can be injected into: its directory, its manifest, the
-- framework that it uses and its settings.
import Graft.Config.Search
import Graft.Failure
import Graft.Manifest.Parser

namespace Graft

/-! ## Manifests in directories -/

namespace Manifest

def fileName : String := "go.mod"

def read (v : Files.View) (directory : String) : Except Error Manifest :=
  let path := if directory.isEmpty then fileName else Path.join directory fileName
  match v.readText path with
  | .error fault => .error (.unreadable path fault)
  | .ok text => parse path text

/-- The nearest directory with a manifest, from the start upwards. -/
def nearest (v : Files.View) (start : String) : Option String :=
  (Path.ancestors (start.length + 1) start).find? fun dir => v.isFile (Path.join dir fileName)

end Manifest

/-! ## Projects -/

/-- A project that was checked. -/
structure Project where
  directory : String
  manifest : Manifest
  framework : Manifest.Framework
  config : Config
  deriving DecidableEq, Repr

namespace Project

def isTooOld (f : Manifest.Framework) : Bool := f.version.before oldestFramework

def openWith (directory : String) (config : Config) : Act Failure Project :=
  Act.within (Context.onProject directory) do
    Act.advance .created
    let v ← Act.view
    let manifest ← Act.ofExcept ((Manifest.read v directory).mapError .manifest)
    let framework ← Act.ofExcept (manifest.framework.mapError .manifest)
    Act.advance .manifestValidated
    if isTooOld framework then Act.fail (.unsupported framework.written)
    Act.advance .versionChecked
    return ⟨directory, manifest, framework, config⟩

/-- Checks the project in a directory, with the settings that count there. -/
def openIn (directory : String) : Act Failure Project := do
  let config ← Config.search directory
  openWith directory config

def modulePath (p : Project) : Except Failure String := p.manifest.modulePath.mapError .manifest

/-- The build tool that the settings name. -/
def toolchain (p : Project) : Toolchain := ⟨p.config.goBinary, p.config.ldflags⟩

end Project
end Graft
