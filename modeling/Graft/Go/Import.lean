-- Imports: the path of a package, and the name that the file gives to it.
import Graft.Go.Tree

namespace Graft.Go

structure Import where
  /-- The name given in the file, if it gives one. -/
  name : Option String
  path : String
  deriving DecidableEq, Repr, Inhabited

namespace Import

/-- The import as it stands in a file. -/
def display (i : Import) : String :=
  match i.name with
  | some name => name ++ " \"" ++ i.path ++ "\""
  | none => "\"" ++ i.path ++ "\""

/-- What follows the last slash of the path. -/
def lastSegment (i : Import) : String :=
  String.ofList (i.path.toList.reverse.takeWhile (· != '/')).reverse

end Import
end Graft.Go
