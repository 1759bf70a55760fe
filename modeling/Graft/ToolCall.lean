-- What is asked of the build tool of a project: to add a module that injected
-- code needs, to build the project, and to tidy its manifest.
namespace Graft

/-- A module that injected code needs, with its version if it is pinned. -/
structure Dependency where
  path : String
  version : Option String
  deriving DecidableEq, Repr

/-- The dependency as the build tool takes it. -/
def Dependency.text (d : Dependency) : String :=
  match d.version with
  | some v => d.path ++ "@" ++ v
  | none => d.path

/-- Something that is asked of the build tool. -/
inductive ToolCall
  | get (d : Dependency)
  /-- Build the project into an artifact at the path. -/
  | build (output : String)
  /-- Drop the requirements that are not needed. -/
  | tidy
  deriving DecidableEq, Repr

end Graft
