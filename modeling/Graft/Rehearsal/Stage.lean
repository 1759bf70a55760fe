-- A stage for injections: a host on which it is said in advance what the
-- build tool does and what a built artifact answers. Other programs are
-- scripts in the tree. What the programs were asked can be read off the
-- journal.
import Graft.Artifact
import Graft.Injection
import Graft.Rehearsal.Shell

namespace Graft.Rehearsal

/-! ## What is said in advance -/

/-- How the build tool ends when it is asked with a verb, and what it complains about. -/
structure Reply where
  exit : Nat
  complaint : List UInt8
  deriving DecidableEq, Repr

/-- What a build leaves at its output. -/
inductive Product
  /-- The artifact that gives the answers of the stage. -/
  | artifact
  | script (text : String)
  | nothing
  deriving DecidableEq, Repr

/-- What the artifact does for a symbol: the answer that it leaves, if any, and how it
ends. -/
structure Part where
  result : Option (List UInt8)
  exit : Nat
  deriving DecidableEq, Repr

/-- All that is said in advance. -/
structure Stage where
  tempDir : String
  /-- The directories in which programs are looked up. -/
  searchPath : List String
  replies : List (String × Reply)
  product : Product
  parts : List (String × Part)
  deriving Repr

namespace Stage

/-- The parts that every stage gives, unless it says otherwise. -/
def commonParts : List (String × Part) :=
  let part := fun (answer : String) => (⟨some (Files.View.encode answer), 0⟩ : Part)
  [(Artifact.tableSymbol, part
      ("\x7b\"symbols\":\x7b\"Migrate\":\"func() error\",\"Seed\":\"func() error\"," ++
       "\"DBClear\":\"func() error\",\"GenerateOpenAPI\":\"func() ([]uint8, error)\"\x7d\x7d")),
   ("Migrate", part "\x7b\x7d"), ("Seed", part "\x7b\x7d"), ("DBClear", part "\x7b\x7d"),
   ("GenerateOpenAPI", part "\x7b\"data\":\"eyJvcGVuYXBpIjoiMy4wLjAifQ==\"\x7d")]

/-- The part of a symbol; an unknown one leaves no answer. -/
def partOf (s : Stage) (symbol : String) : Part :=
  match (s.parts ++ commonParts).find? fun p => p.1 == symbol with
  | some p => p.2
  | none => ⟨none, 0⟩

def replyTo (s : Stage) (verb : String) : Reply :=
  match s.replies.find? fun r => r.1 == verb with
  | some r => r.2
  | none => ⟨0, []⟩

/-! ## Programs -/

/-- The bytes by which the build tool is known. -/
def toolBytes : List UInt8 := Files.View.encode "the build tool of the stage\n"

/-- The bytes by which the artifact of the stage is known. -/
def artifactBytes : List UInt8 := Files.View.encode "the artifact of the stage\n"

/-- What a file can be run as. -/
inductive Program
  | tool
  | artifact
  | script (text : List Char)
  deriving DecidableEq, Repr

/-- The shells that a script can be written for. -/
def shells : List String :=
  ["/bin/sh", "/usr/bin/sh", "/bin/bash", "/usr/bin/bash", "/bin/dash", "/usr/bin/dash",
   "/usr/bin/env"]

/-- The program that the first line of a script names. -/
def interpreter? : List Char → Option String
  | '#' :: '!' :: cs =>
    let line := (cs.takeWhile (· != '\n')).dropWhile fun c => c == ' ' || c == '\t'
    some (String.ofList (line.takeWhile fun c => c != ' ' && c != '\t'))
  | _ => none

def programAt (v : Files.View) (path : String) : Except Files.Fault Program :=
  match v.find path with
  | .error fault => .error fault
  | .ok (.file bytes true) =>
    if bytes == toolBytes then .ok .tool
    else if bytes == artifactBytes then .ok .artifact
    else
      let text := Text.decodeLossy bytes
      match interpreter? text with
      | none => .error .execFormat
      | some name => if shells.contains name then .ok (.script text) else .error .notFound
  | .ok _ => .error .permissionDenied

/-- The files as a program sees them that is run in a directory. -/
def viewIn (v : Files.View) (directory : String) : Except Files.Fault Files.View :=
  match v.store.place v.cwd true directory with
  | .error fault => .error fault
  | .ok p =>
    match v.store.at? p with
    | some .directory => .ok { v with cwd := p }
    | some _ => .error .notADirectory
    | none => .error .notFound

def buildVerb : String := "build"

/-- The verb that the build tool is asked with. -/
def verbOf (arguments : List String) : String := arguments.headD ""

/-- The file that a build leaves, if it leaves one. -/
def productBytes (s : Stage) : Option (List UInt8) :=
  match s.product with
  | .artifact => some artifactBytes
  | .script text => some (Files.View.encode text)
  | .nothing => none

/-- The tree with an executable file at the path, or the tree as it is if none can stand
there. -/
def putProgram (v : Files.View) (path : String) (bytes : List UInt8) : Files.Store :=
  match v.store.place v.cwd true path with
  | .error _ => v.store
  | .ok p =>
    match v.store.at? p with
    | some .directory => v.store
    | _ => v.store.put p (.file bytes true)

/-- The tree after the build tool was asked. -/
def built (s : Stage) (v : Files.View) (arguments : List String) : Files.Store :=
  if verbOf arguments == buildVerb then
    match s.productBytes, arguments.getLast? with
    | some bytes, some output => putProgram v output bytes
    | _, _ => v.store
  else v.store

/-- The value that a run finds under a name. -/
def lookup (environment : List (String × String)) (name : String) : String :=
  match environment.find? fun e => e.1 == name with
  | some e => e.2
  | none => ""

/-- The tree after the artifact left its answer. -/
def answered (v : Files.View) (environment : List (String × String)) (part : Part) :
    Files.Store :=
  match part.result with
  | none => v.store
  | some bytes =>
    match v.write (lookup environment Artifact.resultVariable) bytes with
    | .ok store => store
    | .error _ => v.store

/-- How a program ends that ends by itself. -/
def ended (n : Nat) : Exit := .code (n % 256)

/-- What a program does in the directory that it sees. -/
def outcome (s : Stage) (v : Files.View) (l : Launch) : Program → Outcome
  | .tool =>
    let reply := s.replyTo (verbOf l.arguments)
    ⟨s.built v l.arguments, ended reply.exit, reply.complaint⟩
  | .artifact =>
    let part := s.partOf (lookup l.environment Artifact.symbolVariable)
    ⟨answered v l.environment part, ended part.exit, []⟩
  | .script text =>
    let environment := l.environment ++
      [("TMPDIR", s.tempDir), ("PATH", ":".intercalate s.searchPath)]
    let sh := runScript v (l.program :: l.arguments) environment text
    ⟨sh.view.store, sh.exit, sh.complaint⟩

/-- Runs a program. -/
def launch (s : Stage) (l : Launch) (v : Files.View) : Except Files.Fault Outcome := do
  let inside ← viewIn v l.directory
  let program ← programAt inside l.program
  return s.outcome inside l program

/-- The stage as a host. `process` is the number of the process that works on it. -/
def host (s : Stage) (process : Nat) : Host where
  tempDir := s.tempDir
  searchPath := s.searchPath
  process := process
  second := fun _ => 1700000000
  launch := fun _ l v => s.launch l v
  refusesWrite := fun _ _ => none
  refusesRemoval := fun _ _ => none
  answerFault := fun _ => ""
  settingsFault := fun _ => ""

/-! ## What the programs were asked -/

/-- A run of the build tool or of the artifact. -/
inductive Call
  /-- The arguments of the build tool, and the injected source that it found. -/
  | tool (arguments : List String) (source : Option String)
  /-- The symbol that the artifact was run for, and the directory. -/
  | artifact (symbol directory : String)
  deriving DecidableEq, Repr

/-- The name is one of an injected file. -/
def isInjected (name : String) : Bool :=
  "zz_gyv_codeinject-".toList.isPrefixOf name.toList && ".go".toList.isSuffixOf name.toList

/-- The injected source in the directory that a build sees: the last by name. -/
def sourceIn (v : Files.View) : Option String :=
  match ((v.store.namesIn v.cwd).filter isInjected).getLast? with
  | some name => (v.readText name).toOption
  | none => none

/-- The run that a moment began, if it began one. -/
def callAt (cwd : Files.Place) (m : Moment) : Option Call :=
  match m.event with
  | .launched l =>
    match viewIn ⟨m.store, cwd⟩ l.directory with
    | .error _ => none
    | .ok inside =>
      match programAt inside l.program with
      | .ok .tool =>
        some (.tool l.arguments
          (if verbOf l.arguments == buildVerb then sourceIn inside else none))
      | .ok .artifact =>
        some (.artifact (lookup l.environment Artifact.symbolVariable) inside.cwd.path)
      | _ => none
  | _ => none

/-- The runs in a stretch of the journal. -/
def calls (cwd : Files.Place) (journal : List Moment) : List Call :=
  journal.filterMap (callAt cwd)

/-- The arguments of each run of the build tool. -/
def toolCalls (cs : List Call) : List (List String) :=
  cs.filterMap fun c =>
    match c with
    | .tool arguments _ => some arguments
    | .artifact _ _ => none

/-- The symbol and the directory of each run of the artifact. -/
def artifactCalls (cs : List Call) : List (String × String) :=
  cs.filterMap fun c =>
    match c with
    | .tool _ _ => none
    | .artifact symbol directory => some (symbol, directory)

/-- The injected source that the last build found. -/
def lastSource (cs : List Call) : Option String :=
  let found := cs.filterMap fun c =>
    match c with
    | .tool arguments source => if verbOf arguments == buildVerb then some source else none
    | .artifact _ _ => none
  found.getLast?.join

/-! ## Trees -/

/-- All that stands below a place, each with the path from there; directories end in a
slash. -/
def listing (store : Files.Store) (root : Files.Place) : List String :=
  (store.entries.filterMap fun e =>
    if root.isPrefixOf e.1 && root.length < e.1.length then
      let path := "/".intercalate (e.1.drop root.length)
      match e.2 with
      | .directory => some (path ++ "/")
      | _ => some path
    else none).mergeSort Files.Store.nameLe

/-- The tree with an entry and the directories on the way to it. -/
def place (store : Files.Store) (p : Files.Place) (e : Files.Entry) : Files.Store :=
  (store.makeWay p).put p e

/-- The place that a path is written for; links are not followed. -/
def writtenPlace (cwd : Files.Place) (path : String) : Files.Place :=
  (Path.parts path).foldl (fun p name => if name == ".." then p.dropLast else p ++ [name])
    (if Path.isAbsolute path then [] else cwd)

/-- The tree with an entry at a path, with the directories on the way to it. -/
def enter (v : Files.View) (path : String) (e : Files.Entry) : Files.Store :=
  match v.store.place v.cwd true path with
  | .ok p => place v.store p e
  | .error _ => place v.store (writtenPlace v.cwd path) e

/-- The tree without all that stands at a path and below it, if something stands there. -/
def without? (v : Files.View) (path : String) : Option Files.Store :=
  match v.store.place v.cwd false path with
  | .error _ => none
  | .ok p =>
    if (v.store.at? p).isSome then some ⟨v.store.entries.filter fun e => !p.isPrefixOf e.1⟩
    else none

end Stage
end Graft.Rehearsal
