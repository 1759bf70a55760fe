-- Scanning a directory for Go sources. The sources are read in the order of
-- their names, one after the other, and the scan ends at the first that
-- cannot be read. A stream gives the results one by one, and reads a file
-- only when it is needed.
import Graft.Files.Store
import Graft.Go.Source

namespace Graft.Scan

/-- Why a scan ended early. -/
inductive Error
  | unlisted (directory : String) (fault : Files.Fault)
  | unreadable (path : String) (fault : Files.Fault)
  | malformed (path : String) (position : Go.Position)
  deriving DecidableEq, Repr

/-- Why a directory could not be listed. -/
def listFault (directory : String) (fault : Files.Fault) : String :=
  "IO error for operation on " ++ directory ++ ": " ++ fault.message

def Error.message : Error → String
  | .unlisted directory fault =>
    "Could not read directory " ++ directory ++ ": " ++ listFault directory fault
  | .unreadable path fault => "Could not read " ++ path ++ ": " ++ fault.message
  | .malformed path p =>
    "Syntax error in " ++ path ++ ":" ++ toString p.line ++ ":" ++ toString p.column

/-- The message of the error below this one, if one is reported on its own. -/
def Error.cause : Error → Option String
  | .unreadable _ fault => some fault.message
  | _ => none

/-! ## Files -/

/-- The entry is a source file. Links are none. -/
def isSource (e : Files.View.Listed) : Bool :=
  match e.entry with
  | .file _ _ => (Path.fileName? e.path).bind Path.extension? == some "go"
  | _ => false

/-- The source files in a directory, in the order of their names. -/
def sourceFiles (v : Files.View) (directory : String) : Except Error (List String) :=
  match v.list directory with
  | .error fault => .error (.unlisted directory fault)
  | .ok entries => .ok ((entries.filter isSource).map fun e => e.path)

def readSource (v : Files.View) (path : String) : Except Error Go.Source :=
  match v.readText path with
  | .error fault => .error (.unreadable path fault)
  | .ok text =>
    match Go.Source.parse path text with
    | .ok s => .ok s
    | .error p => .error (.malformed path p)

/-! ## All results at once -/

variable {α : Type}

/-- The results of the files up to the first that cannot be read, and its error. -/
def resultsOf (v : Files.View) (results : Go.Source → List α) :
    List String → List (Except Error α)
  | [] => []
  | path :: more =>
    match readSource v path with
    | .error e => [.error e]
    | .ok s => (results s).map .ok ++ resultsOf v results more

def results (v : Files.View) (directory : String) (f : Go.Source → List α) :
    List (Except Error α) :=
  match sourceFiles v directory with
  | .error e => [.error e]
  | .ok files => resultsOf v f files

/-- The results, or the error at their end. -/
def collect : List (Except Error α) → Except Error (List α)
  | [] => .ok []
  | .error e :: _ => .error e
  | .ok x :: more => (collect more).map fun xs => x :: xs

/-! ## One result at a time -/

/-- A scan under way. -/
structure Stream (α : Type) where
  directory : String
  /-- The files that are not read yet, once the directory is listed. -/
  files : Option (List String)
  /-- The results of the file that was read last. -/
  pending : List α
  /-- The scan ended with an error. -/
  ended : Bool

/-- A scan that begins. -/
def Stream.start (directory : String) : Stream α := ⟨directory, none, [], false⟩

/-- Reads on through the files until one has a result. -/
def Stream.advance (v : Files.View) (f : Go.Source → List α) (directory : String) :
    List String → Option (Except Error α) × Stream α
  | [] => (none, ⟨directory, some [], [], false⟩)
  | path :: more =>
    match readSource v path with
    | .error e => (some (.error e), ⟨directory, some more, [], true⟩)
    | .ok s =>
      match f s with
      | [] => Stream.advance v f directory more
      | x :: xs => (some (.ok x), ⟨directory, some more, xs, false⟩)

/-- The next result, if there is one, and the scan after it. -/
def Stream.next (v : Files.View) (f : Go.Source → List α) (s : Stream α) :
    Option (Except Error α) × Stream α :=
  match s.pending with
  | x :: xs => (some (.ok x), { s with pending := xs })
  | [] =>
    if s.ended then (none, s)
    else
      match s.files with
      | some files => Stream.advance v f s.directory files
      | none =>
        match sourceFiles v s.directory with
        | .error e => (some (.error e), { s with ended := true })
        | .ok files => Stream.advance v f s.directory files

/-! ## What is looked for -/

/-- The exported functions without parameters and results, file by file. -/
def exportedFunctions (v : Files.View) (directory : String) : List (Except Error String) :=
  results v directory Go.Source.exportedFunctions

/-- A call in a file, with the imports of the file. -/
structure Site where
  path : String
  line : Nat
  callee : Go.Expr
  args : List Go.Expr
  imports : List Go.Import
  deriving Repr

/-- What is asked of a call: by the imports of its file, what is selected from, the name
that is selected, and the arguments. -/
abbrev Question := List Go.Import → Go.Expr → String → List Go.Expr → Bool

/-- The call answers the question. Only calls of a selection can. -/
def answers (q : Question) (imports : List Go.Import) (c : Go.Call) : Bool :=
  match c.callee.selector? with
  | some (base, name) => q imports base name c.args
  | none => false

/-- The sites in a file that answer the question. -/
def sitesIn (q : Question) (s : Go.Source) : List Site :=
  (s.calls.filter (answers q s.imports)).map fun c =>
    ⟨s.path, c.line, c.callee, c.args, s.imports⟩

/-- The file holds tests. -/
def isTest (path : String) : Bool :=
  match Path.fileName? path with
  | some name => "_test.go".toList.isSuffixOf name.toList
  | none => false

/-- The package of the first file that states one. -/
def firstPackage (v : Files.View) : List String → Except Error (Option String)
  | [] => .ok none
  | path :: more =>
    if isTest path then firstPackage v more
    else
      match readSource v path with
      | .error e => .error e
      | .ok s =>
        match s.packageName with
        | some name => .ok (some name)
        | none => firstPackage v more

/-- The package of a directory; files of tests do not count. -/
def packageName (v : Files.View) (directory : String) : Except Error (Option String) :=
  match sourceFiles v directory with
  | .error e => .error e
  | .ok files => firstPackage v files

end Graft.Scan
