-- The manifest of a project: what its `go.mod` says about the module, the
-- language version and the required modules, and the framework among them.
import Graft.Files.Fault
import Graft.Version.Parser

namespace Graft

/-- A module that the manifest requires. -/
structure Require where
  path : String
  version : String
  /-- Marked as needed only by other modules. -/
  indirect : Bool
  deriving DecidableEq, Repr

structure Manifest where
  /-- The file that it was read from. -/
  path : String
  moduleName : Option String
  goVersion : Option String
  requires : List Require
  deriving DecidableEq, Repr

namespace Manifest

/-- A manifest that says nothing yet. -/
def empty (path : String) : Manifest := ⟨path, none, none, []⟩

/-- What is wrong with one line. -/
inductive LineFault
  | unterminatedQuoted
  | unterminatedRaw
  | repeatedModule
  | moduleUsage
  | goUsage
  | requireUsage
  | unknownDirective (verb : String)
  | unterminatedBlock (verb : String)
  deriving DecidableEq, Repr

def LineFault.message : LineFault → String
  | .unterminatedQuoted => "unterminated quoted string"
  | .unterminatedRaw => "unterminated raw string"
  | .repeatedModule => "repeated module statement"
  | .moduleUsage => "usage: module module/path"
  | .goUsage => "usage: go 1.23"
  | .requireUsage => "usage: require module/path v1.2.3"
  | .unknownDirective verb => "unknown directive: " ++ verb
  | .unterminatedBlock verb => "unterminated " ++ verb ++ " block"

/-- Why a project has no usable manifest. -/
inductive Error
  /-- No directory from the start upwards holds a manifest. -/
  | noManifest
  | unreadable (path : String) (fault : Files.Fault)
  | malformed (path : String) (line : Nat) (fault : LineFault)
  | missingModule (path : String)
  | noFramework
  | badVersion (version : String) (fault : Version.Fault)
  deriving DecidableEq, Repr

def Error.message : Error → String
  | .noManifest => "No go.mod found"
  | .unreadable path fault => "Could not read " ++ path ++ ": " ++ fault.message
  | .malformed path line fault => path ++ ":" ++ toString line ++ ": " ++ fault.message
  | .missingModule path => path ++ " doesn't declare a module path"
  | .noFramework => "Current project doesn't import Goyave"
  | .badVersion version fault =>
    "Invalid Goyave version " ++ Text.quoted version ++ ": " ++ fault.message

/-- The message of the error below this one, if one is reported on its own. -/
def Error.cause : Error → Option String
  | .unreadable _ fault => some fault.message
  | .badVersion _ fault => some fault.message
  | _ => none

/-- The module path; a manifest without one is not usable where it is needed. -/
def modulePath (m : Manifest) : Except Error String :=
  match m.moduleName with
  | some name => .ok name
  | none => .error (.missingModule m.path)

/-- The requirement of exactly this module. -/
def findRequire? (m : Manifest) (path : String) : Option Require :=
  m.requires.find? fun r => r.path == path

/-! ## The framework -/

/-- The paths under which the framework was published. -/
def frameworkRoots : List String := ["goyave.dev/goyave", "github.com/System-Glitch/goyave"]

/-- The module belongs to the framework. -/
def isFramework (r : Require) : Bool :=
  frameworkRoots.any fun root => root.toList.isPrefixOf r.path.toList

def frameworkRequire? (m : Manifest) : Option Require := m.requires.find? isFramework

/-- The framework as a project uses it. -/
structure Framework where
  importPath : String
  version : Version
  /-- The version as the manifest writes it. -/
  written : String
  deriving DecidableEq, Repr

def framework (m : Manifest) : Except Error Framework :=
  match m.frameworkRequire? with
  | none => .error .noFramework
  | some r =>
    match Version.parseTagged r.version with
    | .ok v => .ok ⟨r.path, v, r.version⟩
    | .error fault => .error (.badVersion r.version fault)

end Manifest

/-- What follows the last slash of a module path. -/
def baseName (modulePath : String) : String :=
  String.ofList (modulePath.toList.reverse.takeWhile (· != '/')).reverse

end Graft
