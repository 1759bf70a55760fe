-- The world in which an injection works, and the steps that it takes there.
-- The state is the tree of files, the context and the journal of all that
-- was done. What other programs do, and which writes and removals the system
-- refuses, is up to the host.
import Graft.Context
import Graft.Files.Store
import Graft.ToolCall

namespace Graft

/-! ## Programs -/

/-- How a program ended. -/
inductive Exit
  | code (n : Nat)
  | signal (n : Nat)
  deriving DecidableEq, Repr

namespace Exit

def isSuccess : Exit → Bool
  | code n => n == 0
  | signal _ => false

def signalName : Nat → String
  | 1 => " (SIGHUP)"
  | 2 => " (SIGINT)"
  | 3 => " (SIGQUIT)"
  | 4 => " (SIGILL)"
  | 5 => " (SIGTRAP)"
  | 6 => " (SIGABRT)"
  | 7 => " (SIGBUS)"
  | 8 => " (SIGFPE)"
  | 9 => " (SIGKILL)"
  | 10 => " (SIGUSR1)"
  | 11 => " (SIGSEGV)"
  | 12 => " (SIGUSR2)"
  | 13 => " (SIGPIPE)"
  | 14 => " (SIGALRM)"
  | 15 => " (SIGTERM)"
  | 16 => " (SIGSTKFLT)"
  | 17 => " (SIGCHLD)"
  | 18 => " (SIGCONT)"
  | 19 => " (SIGSTOP)"
  | 20 => " (SIGTSTP)"
  | 21 => " (SIGTTIN)"
  | 22 => " (SIGTTOU)"
  | 23 => " (SIGURG)"
  | 24 => " (SIGXCPU)"
  | 25 => " (SIGXFSZ)"
  | 26 => " (SIGVTALRM)"
  | 27 => " (SIGPROF)"
  | 28 => " (SIGWINCH)"
  | 29 => " (SIGIO)"
  | 30 => " (SIGPWR)"
  | 31 => " (SIGSYS)"
  | _ => ""

def message : Exit → String
  | code n => "exit status: " ++ toString n
  | signal n => "signal: " ++ toString n ++ signalName n

end Exit

/-- A program that is run. -/
structure Launch where
  program : String
  arguments : List String
  directory : String
  /-- What is added to the environment. -/
  environment : List (String × String)
  deriving DecidableEq, Repr

/-- What a program did. -/
structure Outcome where
  store : Files.Store
  exit : Exit
  complaint : List UInt8

/-- What makes a temporary name differ from all others: the second, the process, and
the count of names that the process drew before. -/
structure Suffix where
  second : Nat
  process : Nat
  serial : Nat
  deriving DecidableEq, Repr

def Suffix.text (s : Suffix) : String :=
  toString s.second ++ "-" ++ toString s.process ++ "-" ++ toString s.serial

/-! ## The state -/

inductive Level
  | info | warning
  deriving DecidableEq, Repr

/-- Something that was done. -/
inductive Event
  | entered (p : Phase)
  | said (level : Level) (text : String)
  /-- The user was told something. -/
  | told (line : String)
  /-- The build tool was asked for something. -/
  | asked (c : ToolCall)
  | launched (l : Launch)
  /-- A file was to be created at the path. -/
  | creating (path : String)
  /-- The file at the path was to be removed. -/
  | removing (path : String)
  deriving DecidableEq, Repr

/-- An event, with the context and the files at that moment. -/
structure Moment where
  event : Event
  context : Context
  store : Files.Store
  deriving Repr

structure World where
  store : Files.Store
  cwd : Files.Place
  /-- The build tool that the environment names. -/
  goBinary : Option String
  context : Context
  /-- How many names were drawn for temporary files. -/
  drawn : Nat
  /-- What was done so far, the oldest first. -/
  journal : List Moment

/-- What is outside of the program's control. The number in front counts the moments of
the journal, so that a host can answer differently each time. -/
structure Host where
  /-- The directory for temporary files. -/
  tempDir : String
  /-- The directories in which programs are looked up. -/
  searchPath : List String
  /-- The number of this process. -/
  process : Nat
  /-- The second at which a name is drawn. -/
  second : Nat → Nat
  /-- Runs a program. -/
  launch : Nat → Launch → Files.View → Except Files.Fault Outcome
  /-- Why a file cannot be written in full, and how much of it can. -/
  refusesWrite : Nat → String → Option (Files.Fault × Nat)
  /-- Why a file cannot be removed. -/
  refusesRemoval : Nat → String → Option Files.Fault
  /-- What the reader of answers says about a text that is no answer. -/
  answerFault : String → String
  /-- What the reader of settings says about a text that states no settings. -/
  settingsFault : String → String

/-- A step that may fail with an `ε`. What it did before it failed stays done. -/
abbrev Act (ε α : Type) := ReaderT Host (ExceptT ε (StateM World)) α

namespace World

def view (w : World) : Files.View := ⟨w.store, w.cwd⟩

/-- The world after one more moment. -/
def record (e : Event) (w : World) : World :=
  { w with journal := w.journal ++ [⟨e, w.context, w.store⟩] }

/-- The events so far. -/
def events (w : World) : List Event := w.journal.map Moment.event

end World

/-! ## Steps -/

namespace Act

variable {ε α : Type}

/-- Takes the step in a world and gives its result and the world after it. -/
def perform (a : Act ε α) (h : Host) (w : World) : Except ε α × World := (a h).run.run w

/-- The step that a function of the host and the world describes. -/
def ofFunction (f : Host → World → Except ε α × World) : Act ε α :=
  fun h => ExceptT.mk fun w => f h w

/-- What can be seen of the files. -/
def view : Act ε Files.View := ofFunction fun _ w => (.ok w.view, w)

/-- Notes an event in the journal. -/
def record (e : Event) : Act ε Unit := ofFunction fun _ w => (.ok (), w.record e)

def info (text : String) : Act ε Unit := record (.said .info text)

def warn (text : String) : Act ε Unit := record (.said .warning text)

/-- Takes a step in a changed context. The context from before comes back, whether the
step fails or not. -/
def within (change : Context → Context) (a : Act ε α) : Act ε α :=
  ofFunction fun h w =>
    let r := a.perform h { w with context := change w.context }
    (r.1, { r.2 with context := w.context })

/-- Goes on to a phase. -/
def advance (p : Phase) : Act ε Unit :=
  ofFunction fun _ w =>
    (.ok (), World.record (.entered p) { w with context := w.context.inPhase p })

/-- Takes a step in a phase. -/
def inPhase (p : Phase) (a : Act ε α) : Act ε α :=
  within (Context.inPhase p) (do record (.entered p); a)

/-- Takes a step, and gives its failure as a value. -/
def attempt {ε' : Type} (a : Act ε α) : Act ε' (Except ε α) :=
  ofFunction fun h w =>
    let r := a.perform h w
    (.ok r.1, r.2)

/-- Takes a step whose failures are failures of another kind. -/
def mapError {ε' : Type} (f : ε → ε') (a : Act ε α) : Act ε' α :=
  ofFunction fun h w =>
    let r := a.perform h w
    (r.1.mapError f, r.2)

/-- A result that does not need the world. -/
def ofExcept (r : Except ε α) : Act ε α := ofFunction fun _ w => (r, w)

def fail (e : ε) : Act ε α := ofExcept (.error e)

/-! ## Steps that change files -/

/-- How far a file was written. -/
inductive Written
  | whole
  | partly (fault : Files.Fault)
  deriving DecidableEq, Repr

/-- Creates a file. If the host refuses, a part of it may have been written. -/
def createFile (path : String) (bytes : List UInt8) : Act Files.Fault Written :=
  ofFunction fun h w =>
    let w := w.record (.creating path)
    match w.view.create path bytes with
    | .error fault => (.error fault, w)
    | .ok store =>
      match h.refusesWrite w.journal.length path with
      | none => (.ok .whole, { w with store })
      | some (fault, n) =>
        match w.view.create path (bytes.take n) with
        | .error fault' => (.error fault', w)
        | .ok part => (.ok (.partly fault), { w with store := part })

/-- Writes a file, whether it exists or not. -/
def writeFile (path : String) (bytes : List UInt8) : Act Files.Fault Unit :=
  ofFunction fun h w =>
    let w := w.record (.creating path)
    match w.view.write path bytes with
    | .error fault => (.error fault, w)
    | .ok store =>
      match h.refusesWrite w.journal.length path with
      | none => (.ok (), { w with store })
      | some (fault, n) =>
        match w.view.write path (bytes.take n) with
        | .error fault' => (.error fault', w)
        | .ok part => (.error fault, { w with store := part })

def removeFile (path : String) : Act Files.Fault Unit :=
  ofFunction fun h w =>
    let w := w.record (.removing path)
    match h.refusesRemoval w.journal.length path with
    | some fault => (.error fault, w)
    | none =>
      match w.view.remove path with
      | .error fault => (.error fault, w)
      | .ok store => (.ok (), { w with store })

/-- Removes a file. If that is refused, it is only reported, in words that open with
`complaint`. -/
def removeOrWarn (complaint path : String) : Act ε Unit := do
  match ← attempt (removeFile path) with
  | .ok () => pure ()
  | .error fault => warn (complaint ++ path ++ ": " ++ fault.message)

/-- Runs a program and gives its outcome. -/
def launch (l : Launch) : Act Files.Fault Outcome :=
  ofFunction fun h w =>
    let w := w.record (.launched l)
    match h.launch w.journal.length l w.view with
    | .error fault => (.error fault, w)
    | .ok outcome => (.ok outcome, { w with store := outcome.store })

/-! ## Names for temporary files -/

/-- Draws what makes a temporary name differ from all others. -/
def drawSuffix : Act ε Suffix :=
  ofFunction fun h w =>
    (.ok ⟨h.second w.drawn, h.process, w.drawn⟩, { w with drawn := w.drawn + 1 })

end Act
end Graft
