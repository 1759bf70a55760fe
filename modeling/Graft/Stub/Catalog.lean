-- The catalog of stubs. A category is a directory of stubs; besides its
-- default it may hold stubs that are named after the lowest framework
-- version that they are for. The one with the greatest version that is not
-- above the wanted one is taken, and the default if there is none.
import Graft.Stub.Template
import Graft.Stub.Texts
import Graft.Version.Parser

namespace Graft.Stub

/-- A stub: its name, which is a path, and its lines. -/
structure Entry where
  name : String
  lines : List String
  deriving DecidableEq, Repr

/-- The source of a stub, which is a template. -/
def Entry.source (e : Entry) : String := String.join (e.lines.map fun l => l ++ "\n")

/-- The stubs in the order in which they are declared. -/
def catalog : List Entry :=
  [⟨"controller/default.go.stub", Texts.controller⟩,
   ⟨"controller/v4.0.0.go.stub", Texts.controllerFour⟩,
   ⟨"model/default.go.stub", Texts.model⟩,
   ⟨"model/v4.0.0.go.stub", Texts.modelFour⟩,
   ⟨"middleware/default.go.stub", Texts.middleware⟩,
   ⟨"middleware/v4.0.0-rc1.go.stub", Texts.middlewareFour⟩,
   ⟨"inject/runtime.go.stub", Texts.runtime⟩,
   ⟨"inject/migrate/default.go.stub", Texts.migrate⟩,
   ⟨"inject/seed/default.go.stub", Texts.seed⟩,
   ⟨"inject/db_clear/default.go.stub", Texts.clear⟩,
   ⟨"inject/openapi/default.go.stub", Texts.openapi⟩]

def names : List String := catalog.map Entry.name

/-- Why a stub could not be used. -/
inductive Error
  | notFound (name : String)
  | badVersion (file : String) (fault : Version.Fault)
  /-- The source of the stub is no template. -/
  | malformed (name : String) (fault : Template.Fault)
  | undefined (name : String) (use : Undefined)
  /-- The template that lays out the stub is missing. -/
  | noLayout (name layout : String) (place : Undefined)
  deriving DecidableEq, Repr

def Error.message : Error → String
  | .notFound name => "Stub " ++ Text.quoted name ++ " not found"
  | .badVersion file fault =>
    "Stub " ++ Text.quoted file ++ " is not named after a valid version: " ++ fault.message
  | .malformed name fault =>
    "Could not parse stub " ++ Text.quoted name ++ ": " ++ fault.message
  | .undefined name use => "Could not render stub " ++ Text.quoted name ++ ": " ++ use.message
  | .noLayout name layout place =>
    "Could not render stub " ++ Text.quoted name ++ ": " ++ place.missing layout

/-- The message of the error below this one, if one is reported on its own. -/
def Error.cause : Error → Option String
  | .notFound _ => none
  | .badVersion _ fault => some fault.message
  | .malformed _ fault => some fault.message
  | .undefined _ use => some use.message
  | .noLayout _ layout place => some (place.missing layout)

/-! ## Versions in names -/

/-- The ending of the name of every stub. -/
def ending : List Char := ".go.stub".toList

/-- `cs` without `tail` at its end. -/
def dropTail (tail cs : List Char) : List Char :=
  if tail.isSuffixOf cs then cs.take (cs.length - tail.length) else cs

/-- `cs` without a `v` in front. -/
def dropMark : List Char → List Char
  | 'v' :: cs => cs
  | cs => cs

/-- The character opens the part of a version behind its numbers. -/
def opensSuffix (c : Char) : Bool := c == '-' || c == '+'

/-- The numbers of a version, with zeros for those that are missing up to three. -/
def completed (core : List Char) : List Char :=
  core ++ (List.replicate (2 - core.count '.') ".0".toList).flatten

def versionText (fileName : List Char) : List Char :=
  let stem := dropMark (dropTail ending fileName)
  completed (stem.takeWhile fun c => !opensSuffix c) ++ stem.dropWhile fun c => !opensSuffix c

def versionOf (fileName : String) : Except Error Version :=
  match Version.parseChars (versionText fileName.toList) with
  | .ok v => .ok v
  | .error fault => .error (.badVersion fileName fault)

/-! ## Choosing a stub -/

/-- The name of the stub that every category falls back to. -/
def defaultFile : List Char := "default.go.stub".toList

/-- What follows the category in the name of one of its stubs. -/
def within? (category : String) (name : String) : Option (List Char) :=
  let lead := category.toList ++ ['/']
  if lead.isPrefixOf name.toList then some (name.toList.drop lead.length) else none

/-- The file name of a stub that stands in the category and is named after a version. -/
def versionedFile? (category : String) (name : String) : Option String :=
  match within? category name with
  | some file =>
    if file = defaultFile || file.contains '/' then none else some (String.ofList file)
  | none => none

/-- A stub and the version that it is named after. -/
abbrev Candidate := String × Version

/-- The better one of the best so far and a stub of this version. -/
def better (wanted : Version) (best : Option Candidate) (name : String) (v : Version) :
    Option Candidate :=
  if wanted.before v then best
  else
    match best with
    | some b => if b.2.before v then some (name, v) else best
    | none => some (name, v)

/-- The best versioned stub among the names. -/
def bestFrom (category : String) (wanted : Version) (best : Option Candidate) :
    List String → Except Error (Option Candidate)
  | [] => .ok best
  | name :: more =>
    match versionedFile? category name with
    | none => bestFrom category wanted best more
    | some file =>
      match versionOf file with
      | .error e => .error e
      | .ok v => bestFrom category wanted (better wanted best name v) more

def defaultName (category : String) : String := category ++ "/default.go.stub"

/-- Chooses a stub among `names`. -/
def selectAmong (names : List String) (category : String) (wanted : Version) :
    Except Error String :=
  match bestFrom category wanted none names with
  | .error e => .error e
  | .ok (some b) => .ok b.1
  | .ok none =>
    if names.contains (defaultName category) then .ok (defaultName category)
    else .error (.notFound (defaultName category))

/-- The stub of a category for a framework version. -/
def select (category : String) (wanted : Version) : Except Error String :=
  selectAmong names category wanted

/-! ## Rendering -/

/-- How stubs are read and filled: with the line ends and the blanks around statements
dropped, with every name given, and letter for letter. -/
def settings : Template.Settings where
  leniency := .strict
  escape _ := .none
  trimBlocks := true
  lstripBlocks := true
  keepTrailingNewline := true

/-- All stubs as templates. -/
def environment : Except Error (List Template) :=
  catalog.mapM fun e => (Template.read settings e.name e.source).mapError (.malformed e.name)

/-- What is reported of a stub that could not be filled. -/
def stopped (name : String) : Template.Stop → Error
  | .undefined use => .undefined name use
  | .noLayout layout place => .noLayout name layout place

/-- The stub with this name, filled with the data. -/
def render (name : String) (d : Data) : Except Error String := do
  let templates ← environment
  match templates.find? fun t => t.name == name with
  | none => .error (.notFound name)
  | some t =>
    (t.fill settings.leniency (settings.escape name) d templates []).mapError (stopped name)

end Graft.Stub
