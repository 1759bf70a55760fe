-- A tree of files. A place is the list of names that leads to it from the
-- root, and each place holds a file, a directory or a link. Following a path
-- goes from name to name, through links and steps upwards; only the last
-- name may be missing.
import Graft.Files.Fault
import Graft.Path

namespace Graft.Files

/-- A place in the tree: the names from the root. -/
abbrev Place := List String

def Place.path (p : Place) : String :=
  if p.isEmpty then "/" else String.join (p.map fun name => "/" ++ name)

/-- What stands at a place. -/
inductive Entry
  | file (bytes : List UInt8) (executable : Bool)
  | directory
  | link (target : String)
  deriving DecidableEq, Repr

/-- A tree of files. The root is a directory and is not listed. -/
structure Store where
  entries : List (Place × Entry)
  deriving DecidableEq, Repr

namespace Store

def empty : Store := ⟨[]⟩

/-- What stands at a place. -/
def at? (s : Store) (p : Place) : Option Entry :=
  if p = [] then some .directory else (s.entries.find? fun e => e.1 == p).map fun e => e.2

/-- The tree with `e` at the place, whatever stood there. -/
def put (s : Store) (p : Place) (e : Entry) : Store :=
  ⟨(p, e) :: s.entries.filter fun x => x.1 != p⟩

/-- The tree without the place. -/
def erase (s : Store) (p : Place) : Store := ⟨s.entries.filter fun x => x.1 != p⟩

/-- The tree with a directory at each place on the way to `p` where nothing stands. -/
def makeWay (s : Store) (p : Place) : Store :=
  (List.range p.length).foldl
    (fun s n => if (s.at? (p.take n)).isNone then s.put (p.take n) .directory else s) s

/-! ## Following paths -/

/-- How many links are followed on the way to one place. -/
def linkLimit : Nat := 40

/-- Follows names from the directory `here`. A link at the end is followed if `follow`
says so. -/
def walk (s : Store) (follow : Bool) (links : Nat) (here : Place) (names : List String) :
    Except Fault Place :=
  match names with
  | [] => .ok here
  | name :: rest =>
    if name = ".." then walk s follow links here.dropLast rest
    else
      match s.at? (here ++ [name]) with
      | none => if rest.isEmpty then .ok (here ++ [name]) else .error .notFound
      | some .directory => walk s follow links (here ++ [name]) rest
      | some (.file _ _) => if rest.isEmpty then .ok (here ++ [name]) else .error .notADirectory
      | some (.link target) =>
        if rest.isEmpty && !follow then .ok (here ++ [name])
        else
          match links with
          | 0 => .error .tooManyLinks
          | n + 1 =>
            walk s follow n (if Path.isAbsolute target then [] else here)
              (Path.parts target ++ rest)
termination_by (links, names.length)

/-- The place that a path leads to from the directory `cwd`. -/
def place (s : Store) (cwd : Place) (follow : Bool) (path : String) : Except Fault Place :=
  if path.isEmpty then .error .notFound
  else
    match walk s (follow || Path.wantsDirectory path) linkLimit
        (if Path.isAbsolute path then [] else cwd) (Path.parts path) with
    | .error fault => .error fault
    | .ok p =>
      match s.at? p with
      | some (.file _ _) => if Path.wantsDirectory path then .error .notADirectory else .ok p
      | _ => .ok p

/-! ## Names in a directory -/

/-- The name of an entry of the directory, if the place is one. -/
def nameIn? (dir p : Place) : Option String :=
  if p.length = dir.length + 1 && dir.isPrefixOf p then p.getLast? else none

/-- The order of names: by code points. -/
def nameLe (a b : String) : Bool :=
  a == b || decide (a.toList < b.toList)

def namesIn (s : Store) (dir : Place) : List String :=
  (s.entries.filterMap fun e => nameIn? dir e.1).mergeSort nameLe

end Store

/-! ## A tree as a program sees it -/

/-- A tree and the directory that relative paths start from. -/
structure View where
  store : Store
  cwd : Place
  deriving DecidableEq, Repr

namespace View

/-- What a path leads to, through links. -/
def find (v : View) (path : String) : Except Fault Entry :=
  match v.store.place v.cwd true path with
  | .error fault => .error fault
  | .ok p =>
    match v.store.at? p with
    | some e => .ok e
    | none => .error .notFound

def isFile (v : View) (path : String) : Bool :=
  match v.find path with
  | .ok (.file _ _) => true
  | _ => false

/-- The path leads to something. -/
def exists? (v : View) (path : String) : Bool := (v.find path).toBool

/-- The text of bytes that are well-formed. -/
def decode? (bytes : List UInt8) : Option String := String.fromUTF8? ⟨bytes.toArray⟩

def encode (text : String) : List UInt8 := text.toUTF8.toList

/-- The bytes of the file that a path leads to. -/
def readBytes (v : View) (path : String) : Except Fault (List UInt8) :=
  match v.find path with
  | .ok (.file bytes _) => .ok bytes
  | .ok _ => .error .isADirectory
  | .error fault => .error fault

/-- The text of the file that a path leads to. -/
def readText (v : View) (path : String) : Except Fault String :=
  match v.readBytes path with
  | .error fault => .error fault
  | .ok bytes =>
    match decode? bytes with
    | some text => .ok text
    | none => .error .notText

/-- The tree with a file at the path that did not exist before. -/
def create (v : View) (path : String) (bytes : List UInt8) : Except Fault Store :=
  match v.store.place v.cwd false path with
  | .error fault => .error fault
  | .ok p =>
    if (v.store.at? p).isSome then .error .alreadyExists
    else .ok (v.store.put p (.file bytes false))

/-- The tree with these bytes in the file that the path leads to. -/
def write (v : View) (path : String) (bytes : List UInt8) : Except Fault Store :=
  match v.store.place v.cwd true path with
  | .error fault => .error fault
  | .ok p =>
    match v.store.at? p with
    | some .directory => .error .isADirectory
    | some (.file _ executable) => .ok (v.store.put p (.file bytes executable))
    | _ => .ok (v.store.put p (.file bytes false))

/-- The tree without the file or link at the path. -/
def remove (v : View) (path : String) : Except Fault Store :=
  match v.store.place v.cwd false path with
  | .error fault => .error fault
  | .ok p =>
    match v.store.at? p with
    | none => .error .notFound
    | some .directory => .error .isADirectory
    | some _ => .ok (v.store.erase p)

/-- An entry of a directory: its path and what it is. -/
structure Listed where
  path : String
  entry : Entry
  deriving DecidableEq, Repr

/-- The entries of the directory that a path leads to, in the order of their names. A
file has none. -/
def list (v : View) (path : String) : Except Fault (List Listed) :=
  match v.store.place v.cwd true path with
  | .error fault => .error fault
  | .ok p =>
    match v.store.at? p with
    | none => .error .notFound
    | some .directory =>
      .ok ((v.store.namesIn p).filterMap fun name =>
        (v.store.at? (p ++ [name])).map fun e => ⟨Path.join path name, e⟩)
    | some _ => .ok []

end View
end Graft.Files
