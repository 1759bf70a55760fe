-- The reasons for which the file system refuses an operation.
namespace Graft.Files

/-- Why an operation on a file or a program was refused. -/
inductive Fault
  | notFound
  | permissionDenied
  | execFormat
  | alreadyExists
  | notADirectory
  | isADirectory
  | notEmpty
  | tooManyLinks
  | notText
  | noSpace
  deriving DecidableEq, Repr, Inhabited

/-- The words of the system and its number for the reason, if it has one. -/
def Fault.message : Fault → String
  | .notFound => "No such file or directory (os error 2)"
  | .permissionDenied => "Permission denied (os error 13)"
  | .execFormat => "Exec format error (os error 8)"
  | .alreadyExists => "File exists (os error 17)"
  | .notADirectory => "Not a directory (os error 20)"
  | .isADirectory => "Is a directory (os error 21)"
  | .notEmpty => "Directory not empty (os error 39)"
  | .tooManyLinks => "Too many levels of symbolic links (os error 40)"
  | .notText => "stream did not contain valid UTF-8"
  | .noSpace => "No space left on device (os error 28)"

end Graft.Files
