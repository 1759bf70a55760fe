-- The artifact of a build: a program that answers for one symbol in each
-- run. It is asked first for the table of its symbols; a symbol of the right
-- type can then be bound and called. The file of the artifact is removed
-- when the artifact is dropped.
import Graft.Base64
import Graft.Envelope
import Graft.Text.Quoted
import Graft.World

namespace Graft

/-- A symbol was not there, or its run did not give a result. -/
inductive SymbolError
  | load (artifact message : String)
  | notFound (name : String)
  | wrongType (name found expected : String)
  | invocation (symbol message : String)
  /-- The function itself returned an error. -/
  | returned (symbol message : String)
  deriving DecidableEq, Repr

def SymbolError.message : SymbolError → String
  | .load artifact message => "Could not load " ++ artifact ++ ": " ++ message
  | .notFound name => "Symbol " ++ Text.quoted name ++ " not found in the injected code"
  | .wrongType name found expected =>
    "Symbol " ++ Text.quoted name ++ " has type " ++ found ++ ", expected " ++ expected
  | .invocation symbol message => "Could not run " ++ symbol ++ ": " ++ message
  | .returned _ message => message

/-- What a symbol gives besides an error. -/
inductive Signature
  | nothing
  | bytes
  deriving DecidableEq, Repr

/-- The type of a symbol as the injected program states it. -/
def Signature.typeText : Signature → String
  | .nothing => "func() error"
  | .bytes => "func() ([]uint8, error)"

/-- An artifact that was loaded. -/
structure Artifact where
  path : String
  /-- The directory that it runs in. -/
  directory : String
  symbols : List (String × String)
  deriving DecidableEq, Repr

/-- A symbol of an artifact with the signature that was asked for. -/
structure BoundSymbol where
  artifact : Artifact
  name : String
  signature : Signature
  deriving DecidableEq, Repr

namespace Artifact

/-- Names the symbol that a run is for. -/
def symbolVariable : String := "GYV_INJECT_SYMBOL"

/-- Names the file that takes the answer. -/
def resultVariable : String := "GYV_INJECT_RESULT"

def tableSymbol : String := "__gyv_symbols__"

/-- The name of a file that takes the answer of a run. -/
def resultName (s : Suffix) : String := "gyv-inject-result-" ++ s.text ++ ".json"

/-- The file that takes the answer of a run. -/
def resultPath (tempDir : String) (s : Suffix) : String := Path.join tempDir (resultName s)

def runFor (artifact directory symbol result : String) : Launch :=
  ⟨artifact, [], directory, [(symbolVariable, symbol), (resultVariable, result)]⟩

/-- Runs the artifact for one symbol and reads its answer. The file that took the answer
is removed once it was read. -/
def execute (artifact directory symbol : String) : Act SymbolError Envelope := do
  let h ← read
  let suffix ← Act.drawSuffix
  let result := resultPath h.tempDir suffix
  let outcome ← Act.mapError (fun fault => .invocation symbol fault.message)
    (Act.launch (runFor artifact directory symbol result))
  let v ← Act.view
  match v.readText result with
  | .error _ =>
    Act.fail (.invocation symbol
      ("exited (" ++ outcome.exit.message ++ ") without reporting a result"))
  | .ok text =>
    Act.removeOrWarn "Could not delete " result
    match Envelope.parse text with
    | some e => pure e
    | none => Act.fail (.invocation symbol ("malformed result: " ++ h.answerFault text))

/-- Removes the file of an artifact. -/
def discard {ε : Type} (path : String) : Act ε Unit :=
  Act.removeOrWarn "Could not delete compiled artifact at " path

/-- Removes the file of an artifact that is not needed any more. -/
def drop {ε : Type} (a : Artifact) : Act ε Unit := discard a.path

/-- The symbols in an answer, unless it is an error. -/
def loaded (path : String) (answer : Except SymbolError Envelope) :
    Except SymbolError (List (String × String)) :=
  match answer with
  | .error e => .error (.load path e.message)
  | .ok e =>
    match e.error with
    | some message => .error (.load path message)
    | none => .ok (e.symbols.getD [])

/-- Loads the artifact at the path. If it cannot be loaded, its file is removed. -/
def load (path directory : String) : Act SymbolError Artifact := do
  match loaded path (← Act.attempt (execute path directory tableSymbol)) with
  | .ok symbols => pure ⟨path, directory, symbols⟩
  | .error e =>
    discard path
    Act.fail e

def typeOf (a : Artifact) (name : String) : Except SymbolError String :=
  match a.symbols.find? fun s => s.1 == name with
  | some s => .ok s.2
  | none => .error (.notFound name)

/-- Why a symbol cannot be bound, if it cannot. -/
def mismatch? (a : Artifact) (name : String) (signature : Signature) : Option SymbolError :=
  match a.typeOf name with
  | .error e => some e
  | .ok found =>
    if found == signature.typeText then none
    else some (.wrongType name found signature.typeText)

/-- Binds a symbol. If that fails, the artifact is dropped. -/
def bind (a : Artifact) (name : String) (signature : Signature) : Act SymbolError BoundSymbol :=
  match a.mismatch? name signature with
  | none => pure ⟨a, name, signature⟩
  | some e => do
    a.drop
    Act.fail e

end Artifact

namespace BoundSymbol

/-- What an answer says about a call of the symbol. -/
def resultOf (symbol : String) (e : Envelope) : Except SymbolError (List UInt8) :=
  match e.error with
  | some message => .error (.returned symbol message)
  | none =>
    match e.data with
    | none => .ok []
    | some data =>
      match Base64.decode (Files.View.encode data) with
      | .ok bytes => .ok bytes
      | .error fault => .error (.invocation symbol ("invalid data: " ++ fault.message))

def call (f : BoundSymbol) : Act SymbolError (List UInt8) := do
  let e ← Artifact.execute f.artifact.path f.artifact.directory f.name
  Act.ofExcept (resultOf f.name e)

end BoundSymbol
end Graft
