-- All that can make an injection fail, with its words and its category.
import Graft.Artifact
import Graft.Manifest
import Graft.Resolve
import Graft.Stub.Catalog
import Graft.Toolchain

namespace Graft

/-- What a failure is about. -/
inductive Category
  | configuration | resolution | template | build | symbol
  deriving DecidableEq, Repr

def Category.name : Category → String
  | .configuration => "configuration"
  | .resolution => "resolution"
  | .template => "template"
  | .build => "build"
  | .symbol => "symbol"

/-- The oldest framework that code can be injected for. -/
def oldestFramework : Version := .release 3 9 1

/-- Why an injection failed. -/
inductive Failure
  | manifest (e : Manifest.Error)
  | scan (e : Scan.Error)
  | resolve (e : Resolve.Error)
  | stub (e : Stub.Error)
  | build (e : BuildError)
  | symbol (e : SymbolError)
  | unsupported (found : String)
  /-- The package at the root of the project is not the main one. -/
  | notMain (directory found : String)
  | temporaryFile (path : String) (fault : Files.Fault)
  deriving DecidableEq, Repr

namespace Failure

def message : Failure → String
  | manifest e => e.message
  | scan e => e.message
  | resolve e => e.message
  | stub e => e.message
  | build e => e.message
  | symbol e => e.message
  | unsupported found =>
    "Unsupported Goyave version " ++ found ++ ". Minimum version: v" ++ oldestFramework.text
  | notMain directory found =>
    "Package at " ++ directory ++ " is " ++ Text.quoted found ++ ", expected \"main\""
  | temporaryFile path fault =>
    "Could not write temporary file " ++ path ++ ": " ++ fault.message

/-- The message of the error below this one, if one is reported on its own. -/
def cause : Failure → Option String
  | manifest e => e.cause
  | scan e => e.cause
  | resolve e => e.cause
  | stub e => e.cause
  | build e => e.cause
  | symbol _ => none
  | unsupported _ => none
  | notMain _ _ => none
  | temporaryFile _ fault => some fault.message

def category : Failure → Category
  | manifest _ => .configuration
  | scan _ => .resolution
  | resolve _ => .resolution
  | stub _ => .template
  | build _ => .build
  | symbol _ => .symbol
  | unsupported _ => .configuration
  | notMain _ _ => .configuration
  | temporaryFile _ _ => .build

def chained (message : String) (cause : Option String) : String :=
  match cause with
  | some c => message ++ ": " ++ c
  | none => message

def report (e : Failure) : String := chained e.message e.cause

end Failure
end Graft
