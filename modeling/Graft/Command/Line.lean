-- Command lines. Flags and options may stand anywhere behind the command that
-- knows them; short ones may be joined, and a value may follow its option
-- directly, behind an equals sign, or as the next word.
import Graft.Command
import Graft.Text.Lines

namespace Graft.Command

/-- What a command line asks for. -/
inductive Request
  | run (c : Command)
  | help
  | version
  /-- The line cannot be understood. -/
  | misuse
  deriving DecidableEq, Repr

/-- The commands that take options. -/
inductive Verb
  | migrate | seed | clear | openapi | init
  deriving DecidableEq, Repr

/-- The options. -/
inductive Switch
  | verbose | help | version | project | seeders | output | force
  deriving DecidableEq, Repr

namespace Switch

def takesValue : Switch → Bool
  | project => true
  | seeders => true
  | output => true
  | _ => false

def longName : Switch → String
  | verbose => "verbose"
  | help => "help"
  | version => "version"
  | project => "project-path"
  | seeders => "seeders"
  | output => "output"
  | force => "force"

def shortName : Switch → Option Char
  | verbose => some 'v'
  | help => some 'h'
  | version => some 'V'
  | project => some 'p'
  | seeders => some 's'
  | output => some 'o'
  | force => none

end Switch

/-- The options that a command knows. -/
def Verb.switches : Verb → List Switch
  | migrate => [.verbose, .help, .project]
  | seed => [.verbose, .help, .project, .seeders]
  | clear => [.verbose, .help, .project]
  | openapi => [.verbose, .help, .project, .output]
  | init => [.verbose, .help, .force]

/-- What was given so far. -/
structure Given where
  verbose : Bool
  force : Bool
  project : Option String
  output : Option String
  seeders : List String
  deriving DecidableEq, Repr

def Given.nothing : Given := ⟨false, false, none, none, []⟩

/-- Gives a flag, which may be given once. -/
def Given.flag (g : Given) : Switch → Except Request Given
  | .verbose => if g.verbose then .error .misuse else .ok { g with verbose := true }
  | .force => if g.force then .error .misuse else .ok { g with force := true }
  | .help => .error .help
  | .version => .error .version
  | _ => .error .misuse

/-- The names between commas. -/
def namesIn (value : String) : List String :=
  (Text.splitOn ',' value.toList).map String.ofList

/-- Gives an option its value. Only the names of seeders may be given more than once, and
only they may be empty. -/
def Given.option (g : Given) (s : Switch) (value : String) : Except Request Given :=
  match s with
  | .project =>
    if g.project.isSome || value.isEmpty then .error .misuse
    else .ok { g with project := some value }
  | .output =>
    if g.output.isSome || value.isEmpty then .error .misuse
    else .ok { g with output := some value }
  | .seeders => .ok { g with seeders := g.seeders ++ namesIn value }
  | _ => .error .misuse

/-- A word of a command line. -/
inductive Word
  /-- A long option, with the value behind its equals sign. -/
  | long (name : String) (value : Option String)
  /-- Short options that are joined. -/
  | short (letters : List Char)
  /-- The mark behind which no options follow. -/
  | mark
  | plain (text : String)
  deriving DecidableEq, Repr

def Word.ofText (text : String) : Word :=
  match text.toList with
  | ['-', '-'] => .mark
  | '-' :: '-' :: cs =>
    let r := Text.breakAt '=' cs
    .long (String.ofList r.1) (r.2.map String.ofList)
  | '-' :: c :: cs => .short (c :: cs)
  | _ => .plain text

/-- The value behind short options that are joined; an equals sign in front of it does
not count. -/
def joinedValue : List Char → Option String
  | [] => none
  | '=' :: cs => some (String.ofList cs)
  | cs => some (String.ofList cs)

/-- Reads short options that are joined. The result may be an option that still needs its
value. -/
def readShort (known : List Switch) (g : Given) :
    List Char → Except Request (Given × Option Switch)
  | [] => .ok (g, none)
  | c :: cs =>
    match known.find? fun s => s.shortName == some c with
    | none => .error .misuse
    | some s =>
      if s.takesValue then
        match joinedValue cs with
        | some value => (g.option s value).map fun g' => (g', none)
        | none => .ok (g, some s)
      else
        match g.flag s with
        | .error r => .error r
        | .ok g' => readShort known g' cs

/-- Reads a word that is an option. The result may be an option that still needs its
value. -/
def readOption (known : List Switch) (g : Given) : Word → Except Request (Given × Option Switch)
  | .short letters => readShort known g letters
  | .long name value =>
    match known.find? fun s => s.longName == name with
    | none => .error .misuse
    | some s =>
      if s.takesValue then
        match value with
        | some v => (g.option s v).map fun g' => (g', none)
        | none => .ok (g, some s)
      else if value.isSome then .error .misuse
      else (g.flag s).map fun g' => (g', none)
  | _ => .error .misuse

/-- Reads the options of a command to the end of the line. -/
def readOptions (known : List Switch) (g : Given) : List String → Except Request Given
  | [] => .ok g
  | text :: texts =>
    match Word.ofText text with
    | .plain _ => .error .misuse
    | .mark => if texts.isEmpty then .ok g else .error .misuse
    | w =>
      match readOption known g w with
      | .error r => .error r
      | .ok (g', none) => readOptions known g' texts
      | .ok (g', some s) =>
        match texts with
        | [] => .error .misuse
        | value :: more =>
          match Word.ofText value with
          | .plain v =>
            match g'.option s v with
            | .error r => .error r
            | .ok g'' => readOptions known g'' more
          | _ => .error .misuse

/-- The project that the environment names, where the line names none. -/
def projectOf (environment : Option String) (g : Given) : Except Request (Option String) :=
  match g.project, environment with
  | some p, _ => .ok (some p)
  | none, some p => if p.isEmpty then .error .misuse else .ok (some p)
  | none, none => .ok none

/-- The file for the description of the routes, where the line names none. -/
def defaultOutput : String := "openapi.json"

def Verb.command (verb : Verb) (environment : Option String) (g : Given) :
    Except Request Command :=
  match verb with
  | migrate => (projectOf environment g).map .migrate
  | seed => (projectOf environment g).map fun p => .seed p g.seeders
  | clear => (projectOf environment g).map .clear
  | openapi => (projectOf environment g).map fun p => .openapi p (g.output.getD defaultOutput)
  | init => .ok (.init g.force)

/-- What the line behind a command asks for. -/
def readVerb (verb : Verb) (environment : Option String) (texts : List String) : Request :=
  match (readOptions verb.switches .nothing texts).bind (verb.command environment) with
  | .ok c => .run c
  | .error r => r

/-! ## Groups of commands -/

/-- A word behind a group. -/
inductive Choice
  | verb (v : Verb)
  | database
  | help
  deriving DecidableEq, Repr

/-- What can follow the name of the program. -/
def topChoices : List (String × Choice) :=
  [("db", .database), ("openapi", .verb .openapi), ("init", .verb .init), ("help", .help)]

/-- What can follow the word for the database. -/
def databaseChoices : List (String × Choice) :=
  [("migrate", .verb .migrate), ("seed", .verb .seed), ("clear", .verb .clear), ("help", .help)]

def choice? (choices : List (String × Choice)) (name : String) : Option Choice :=
  (choices.find? fun c => c.1 == name).map fun c => c.2

/-- Help is asked for; the words behind name the command that it is about. -/
def readHelp (choices : List (String × Choice)) : List String → Request
  | [] => .help
  | name :: names =>
    match choice? choices name with
    | none => .misuse
    | some .database => readHelp databaseChoices names
    | some _ => if names.isEmpty then .help else .misuse

/-- Reads the line behind a group up to the choice, and goes on with it. -/
def readGroup (known : List Switch) (choices : List (String × Choice))
    (go : Choice → List String → Request) (g : Given) : List String → Request
  | [] => .misuse
  | text :: texts =>
    match Word.ofText text with
    | .mark => .misuse
    | .plain name =>
      match choice? choices name with
      | some c => go c texts
      | none => .misuse
    | w =>
      match readOption known g w with
      | .ok (g', none) => readGroup known choices go g' texts
      | .ok (_, some _) => .misuse
      | .error r => r

/-- What the line behind the word for the database asks for. -/
def readDatabase (environment : Option String) (texts : List String) : Request :=
  readGroup [.verbose, .help] databaseChoices
    (fun c rest =>
      match c with
      | .verb v => readVerb v environment rest
      | .help => readHelp databaseChoices rest
      | .database => .misuse)
    .nothing texts

/-- What a command line asks for. `environment` is the project that the environment
names. -/
def Request.ofLine (environment : Option String) (texts : List String) : Request :=
  readGroup [.verbose, .help, .version] topChoices
    (fun c rest =>
      match c with
      | .verb v => readVerb v environment rest
      | .database => readDatabase environment rest
      | .help => readHelp topChoices rest)
    .nothing texts

/-! ## Answers -/

/-- How the program is used. -/
def usage : String :=
  "Usage: gyv [-v] <COMMAND>\n\nCommands:\n" ++
  "  db migrate [-p <PROJECT>]               Run the automatic migrations\n" ++
  "  db seed [-p <PROJECT>] [-s <NAME,...>]  Run seeders, in order\n" ++
  "  db clear [-p <PROJECT>]                 Delete all the records of every model\n" ++
  "  openapi [-p <PROJECT>] [-o <FILE>]      Generate an OpenAPI 3 specification\n" ++
  "  init [--force]                          Create a configuration file\n"

/-- What a command line comes to: the number with which the program ends, what it told,
and why it failed. -/
structure Answer where
  code : Nat
  told : String
  complaint : Option String
  deriving DecidableEq, Repr

/-- What the user was told. -/
def toldIn (events : List Event) : String :=
  String.join (events.map fun e =>
    match e with
    | .told line => line ++ "\n"
    | _ => "")

/-- The answer to a request that is not about a project. -/
def Request.plainAnswer : Request → Answer
  | .version => ⟨0, "gyv 0.1.0\n", none⟩
  | .help => ⟨0, usage, none⟩
  | _ => ⟨2, "", some usage⟩

def Request.answer (h : Host) (w : World) : Request → Answer × World
  | .run c =>
    let r := c.run.perform h w
    let told := toldIn (r.2.events.drop w.events.length)
    match r.1 with
    | .ok () => (⟨0, told, none⟩, r.2)
    | .error e => (⟨1, told, some ("❌ " ++ e.report ++ "\n")⟩, r.2)
  | r => (r.plainAnswer, w)

end Graft.Command
